import NodePlane.Controller.Refinement.Lifecycle

/-! Every call of the controller is a run of changes, under the lock or without it, and
the row that the lock's holder has claimed stays claimed. -/
namespace NodePlane
namespace Controller
open Library

/-! Claimed rows over changes that take no lock. -/

section Kept
variable {locked : Bool} {allow : Fleet → Job → Prop} {db next : Db} {es : List Event}

theorem Change.settings_to (numbered : Numbered db) (change : Change locked allow db es next)
    {s : SettingsTask} (listed : s ∈ db.fleet.settingsTasks) :
    ∃ t ∈ next.fleet.settingsTasks, SettingsStep locked db s t := by
  have same : SettingsStep locked db s s := .moves (SettingsTask.Moves.refl _ s)
  cases change with
  | record now actor profile previous scope behind covers =>
    refine ⟨s, ?_, same⟩
    rw [record_fleet]
    exact listed
  | enqueue queued =>
    cases queued with
    | queueSettings => exact ⟨s, List.mem_append_left _ listed, same⟩
    | @replaceSettings c node draw intent removed held row blocked found open_ others taken =>
      refine ⟨_, List.mem_append_left _ (List.mem_map_of_mem listed), ?_⟩
      split
      · next match_ =>
        have itself : s = c := numbered.settings.unique listed row match_
        subst itself
        exact .moves ⟨rfl, .inr (.inr ⟨held, by rw [blocked]; rfl, by simp, by simp⟩)⟩
      · exact same
    | queueJob => exact ⟨s, listed, same⟩
  | fleet change =>
    obtain ⟨g, shape, moved⟩ := change.settings_map numbered
    exact ⟨g s, by rw [shape]; exact List.mem_map_of_mem listed, moved s listed⟩
  | _ => exact ⟨s, listed, same⟩

/-- A settings row is an old one, or has just been queued. -/
theorem Change.settings_from (numbered : Numbered db)
    (change : Change locked allow db es next) {t : SettingsTask}
    (listed : t ∈ next.fleet.settingsTasks) :
    (∃ s ∈ db.fleet.settingsTasks, SettingsStep locked db s t) ∨
      t.status = .awaitingExecutor := by
  have old : t ∈ db.fleet.settingsTasks →
      (∃ s ∈ db.fleet.settingsTasks, SettingsStep locked db s t) ∨
        t.status = .awaitingExecutor :=
    fun was => .inl ⟨t, was, .moves (SettingsTask.Moves.refl _ t)⟩
  cases change with
  | record now actor profile previous scope behind covers =>
    rw [record_fleet] at listed
    exact old listed
  | enqueue queued =>
    cases queued with
    | queueSettings =>
      rcases List.mem_append.mp listed with was | new
      · exact old was
      · exact .inr (by rw [List.mem_singleton.mp new])
    | @replaceSettings c node draw intent removed held row blocked found open_ others taken =>
      rcases List.mem_append.mp listed with was | new
      · obtain ⟨s, member, rfl⟩ := List.mem_map.mp was
        refine .inl ⟨s, member, ?_⟩
        split
        · next match_ =>
          have itself : s = c := numbered.settings.unique member row match_
          subst itself
          exact .moves ⟨rfl, .inr (.inr ⟨held, by rw [blocked]; rfl, by simp, by simp⟩)⟩
        · exact .moves (SettingsTask.Moves.refl _ s)
      · exact .inr (by rw [List.mem_singleton.mp new])
    | queueJob => exact old listed
  | fleet change =>
    obtain ⟨g, shape, moved⟩ := change.settings_map numbered
    rw [shape] at listed
    obtain ⟨s, member, rfl⟩ := List.mem_map.mp listed
    exact .inl ⟨s, member, moved s member⟩
  | _ => exact old listed

theorem Change.job_from (numbered : Numbered db) (change : Change locked allow db es next)
    {k : Job} (listed : k ∈ next.fleet.jobs) :
    (∃ j ∈ db.fleet.jobs, JobStep locked j k) ∨ k.status = .awaitingExecutor := by
  have old : k ∈ db.fleet.jobs →
      (∃ j ∈ db.fleet.jobs, JobStep locked j k) ∨ k.status = .awaitingExecutor :=
    fun was => .inl ⟨k, was, .moves (Job.Moves.refl _ k)⟩
  cases change with
  | record now actor profile previous scope behind covers =>
    rw [record_fleet] at listed
    exact old listed
  | enqueue queued =>
    cases queued with
    | queueSettings => exact old listed
    | replaceSettings => exact old listed
    | queueJob =>
      rcases List.mem_append.mp listed with was | new
      · exact old was
      · exact .inr (by rw [List.mem_singleton.mp new])
  | fleet change =>
    obtain ⟨g, shape, moved⟩ := change.job_map numbered
    rw [shape] at listed
    obtain ⟨j, member, rfl⟩ := List.mem_map.mp listed
    exact .inl ⟨j, member, moved j member⟩
  | _ => exact old listed

theorem Change.job_to (numbered : Numbered db) (change : Change locked allow db es next)
    {j : Job} (listed : j ∈ db.fleet.jobs) : ∃ k ∈ next.fleet.jobs, JobStep locked j k := by
  have same : JobStep locked j j := .moves (Job.Moves.refl _ j)
  cases change with
  | record now actor profile previous scope behind covers =>
    refine ⟨j, ?_, same⟩
    rw [record_fleet]
    exact listed
  | enqueue queued =>
    cases queued with
    | queueSettings => exact ⟨j, listed, same⟩
    | replaceSettings => exact ⟨j, listed, same⟩
    | queueJob => exact ⟨j, List.mem_append_left _ listed, same⟩
  | fleet change =>
    obtain ⟨g, shape, moved⟩ := change.job_map numbered
    exact ⟨g j, by rw [shape]; exact List.mem_map_of_mem listed, moved j listed⟩
  | _ => exact ⟨j, listed, same⟩

theorem Change.drain_kept (change : Change false allow db es next) {key : NodeKey}
    (draining : key ∈ db.fleet.drains) : key ∈ next.fleet.drains := by
  cases change with
  | record now actor profile previous scope behind covers =>
    rw [record_fleet]
    exact draining
  | enqueue queued => cases queued <;> exact draining
  | fleet change =>
    cases change with
    | drain held => cases held
    | remove mode held => cases held
    | _ => exact draining
  | _ => exact draining

end Kept

/-- What the holder of the lock has claimed is still claimed. -/
def Holder.Holds (db : Db) : Holder → Prop
  | .free => True
  | .operation row _ => ∃ t ∈ db.outbox.tasks, t.row = row ∧ t.status = .running
  | .inspecting task _ _ => task.status = .awaitingExecutor ∧
      ∃ status, { task with status := status } ∈ db.fleet.settingsTasks
  | .settings task _ => { task with status := .running } ∈ db.fleet.settingsTasks
  | .job j _ => { j with status := .running } ∈ db.fleet.jobs
  | .retiring node => node ∈ db.fleet.drains

theorem Holder.Holds.step {allow : Fleet → Job → Prop} {db next : Db} {es : List Event}
    {h : Holder} (holds : h.Holds db) (numbered : Numbered db)
    (change : Change false allow db es next) : h.Holds next := by
  cases h with
  | free => trivial
  | operation row sent =>
    obtain ⟨t, listed, same, running⟩ := holds
    obtain ⟨u, kept, step⟩ := change.task_to numbered listed
    refine ⟨u, kept, step.row.trans same, ?_⟩
    cases step with
    | moves h => rw [h.status.unlocked (by rw [running]; rfl), running]
    | claimed held => cases held
  | inspecting task installed initialized =>
    obtain ⟨queued, status, listed⟩ := holds
    obtain ⟨t, kept, step⟩ := change.settings_to numbered listed
    refine ⟨queued, t.status, ?_⟩
    have shape := step.shape
    rw [shape] at kept
    exact kept
  | settings task sent =>
    obtain ⟨t, kept, step⟩ := change.settings_to numbered holds
    cases step with
    | moves h =>
      have shape := h.row
      rw [h.status.unlocked rfl] at shape
      rw [shape] at kept
      exact kept
    | claimed held => cases held
  | job j sent =>
    obtain ⟨k, kept, step⟩ := change.job_to numbered holds
    cases step with
    | moves h =>
      have shape := h.row
      rw [h.status.unlocked rfl] at shape
      rw [shape] at kept
      exact kept
    | claimed held => cases held
  | retiring node => exact change.drain_kept holds

theorem Holder.Holds.steps {allow : Fleet → Job → Prop} {db next : Db} {es : List Event}
    {h : Holder} (holds : h.Holds db) (sound : Sound db)
    (run : Steps (Change false allow) db es next) : h.Holds next := by
  induction run with
  | refl => exact holds
  | head step _ ih => exact ih (holds.step sound.numbered step) (sound.step step)

/-! Who holds the lock after a call. -/

inductive Handover (s : System) : Call → System → Prop
  | kept {c : Call} : Handover s c s
  | freed {c : Call} {db : Db} : Handover s c ⟨db, .free⟩
  | request {r : Request} {db : Db} : Handover s (.request r) ⟨db, s.holder⟩
  | claimsTask {id : Uuid} {db : Db} {row : TaskRow} (free : s.holder = .free)
      (claim : IntentExecutor.claim s.db id = some (db, some row)) :
    Handover s (.claimTask id) ⟨db, .operation row false⟩
  | sendsTask {now : Time} {row : TaskRow} (claimed : s.holder = .operation row false) :
    Handover s (.sendTask now) ⟨s.db, .operation row true⟩
  | inspects {id : Uuid} {terminal installed initialized : Bool} {task : SettingsTask}
      (found : NodeSettingsExecutor.find s.db.fleet id .awaitingExecutor = some task)
      (due : NodeSettingsExecutor.ready s.db task terminal = true) :
    Handover s (.inspectNode id terminal) ⟨s.db, .inspecting task installed initialized⟩
  | claimsSettings {terminal installed initialized : Bool} {task : SettingsTask} {f : Fleet}
      (inspected : s.holder = .inspecting task installed initialized)
      (claim : NodeSettingsExecutor.claim s.db task terminal = (f, true)) :
    Handover s (.claimSettings terminal) ⟨{ s.db with fleet := f }, .settings task false⟩
  | sendsSettings {task : SettingsTask} (claimed : s.holder = .settings task false) :
    Handover s .sendSettings ⟨s.db, .settings task true⟩
  | claimsJob {id : Uuid} {db : Db} {j : Job} : Handover s (.claimJob id) ⟨db, .job j false⟩
  | sendsJob {j : Job} (claimed : s.holder = .job j false) :
    Handover s .sendJob ⟨s.db, .job j true⟩
  | abandons {now : Time} {actor : Uuid} {node : NodeKey} {db : Db} :
    Handover s (.abandonNode now actor node) ⟨db, .retiring node⟩

theorem commit_handover {s : System} {c : Call} (result : Result (Db × List Event))
    {next : Holder} (done : ∀ db, Handover s c ⟨db, next⟩) :
    Handover s c (s.commit result next).1 := by
  unfold System.commit
  split
  · exact .kept
  · exact done _

theorem exec_handover (s : System) (c : Call) : Handover s c (s.exec c).1 := by
  unfold System.exec
  cases c with
  | request r => exact commit_handover _ fun _ => .request
  | repair r =>
    dsimp only
    split
    · exact commit_handover _ fun _ => .freed
    · exact .kept
  | claimTask id =>
    unfold System.claimTask
    dsimp only
    split
    · next free =>
      split
      · exact .kept
      · exact .freed
      · next db row claim => exact .claimsTask free claim
    · exact .kept
  | sendTask now =>
    unfold System.sendTask
    dsimp only
    split
    · next row claimed =>
      split
      · exact .freed
      · exact .sendsTask claimed
    · exact .kept
  | finishTask succeeded =>
    dsimp only
    split
    · exact .freed
    · exact .kept
  | inspectNode id terminal =>
    unfold System.inspectNode
    dsimp only
    split
    · split
      · exact .kept
      · next task found =>
        split
        · next due => exact .inspects found due.2.2
        · exact .kept
    · exact .kept
  | prepareNode =>
    unfold System.prepareNode
    dsimp only
    split
    · split <;> exact .kept
    · exact .kept
  | retireUninstalled =>
    unfold System.retireUninstalled
    dsimp only
    split
    · split
      · exact .kept
      · exact .freed
    · exact .kept
  | claimSettings terminal =>
    unfold System.claimSettings
    dsimp only
    split
    · next task installed initialized inspected =>
      cases claim : NodeSettingsExecutor.claim s.db task terminal with
      | mk f claimed =>
        cases claimed
        · exact .freed
        · exact .claimsSettings inspected claim
    · exact .kept
  | sendSettings =>
    dsimp only
    split
    · next task claimed => exact .sendsSettings claimed
    · exact .kept
  | finishSettings now actor receipt changes =>
    unfold System.finishSettings
    dsimp only
    split
    · split
      · exact .freed
      · exact commit_handover _ fun _ => .freed
    · exact .kept
  | claimJob id =>
    unfold System.claimJob
    dsimp only
    split
    · split
      · exact .kept
      · split
        · exact .kept
        · exact .claimsJob
    · exact .kept
  | sendJob =>
    unfold System.sendJob
    dsimp only
    split
    · next j claimed => exact .sendsJob claimed
    · exact .kept
  | finishJob now actor receipt changes =>
    dsimp only
    split
    · exact commit_handover _ fun _ => .freed
    · exact .kept
  | failJob ownerConflict =>
    dsimp only
    split
    · exact .freed
    · exact .kept
  | abandonNode now actor node =>
    dsimp only
    split
    · exact commit_handover _ fun _ => .abandons
    · exact .kept
  | retireNode =>
    dsimp only
    split
    · exact commit_handover _ fun _ => .freed
    · exact .kept
  | crash => exact .freed

/-! Calls. -/

/-- The events that confirm what an agent wrote or removed. -/
def Event.confirms : Event → Bool
  | .wrote _ _ _ => true
  | .cleaned _ _ => true
  | _ => false

def Call.locked : Call → Bool
  | .request _ => false
  | _ => true

namespace System

/-- The node job whose result a call brings, if it brings one. -/
def completing (s : System) : Call → Option Job
  | .finishJob _ _ _ _ =>
    match s.holder with
    | .job j true => NodeOperations.find s.db.fleet j.id Status.held
    | _ => none
  | .repair (.confirmJob _ _ id _ _) => NodeOperations.find s.db.fleet id (· = .blocked)
  | .repair (.resolveJob _ _ id _ _) => NodeOperations.find s.db.fleet id (· = .blocked)
  | _ => none

section Calls
variable {allow : Fleet → Job → Prop} {s : System}

/-- What a call does to a sound database whose claimed row is there. -/
structure Covers (allow : Fleet → Job → Prop) (locked : Bool) (s : System)
    (out : System × List Event) : Prop where
  run : Steps (Change locked allow) s.db (out.2.filter Event.confirms) out.1.db
  holds : out.1.holder.Holds out.1.db

theorem Covers.refl (locked : Bool) (holds : s.holder.Holds s.db) :
    Covers allow locked s (s, []) := ⟨Steps.refl _, holds⟩

theorem Covers.free {locked : Bool} {db : Db} {es : List Event} (sound : Sound s.db)
    (run : Reaches locked allow s.db (es.filter Event.confirms) db) :
    Covers allow locked s (⟨db, .free⟩, es) := ⟨run sound, trivial⟩

theorem Covers.commit {locked : Bool} {result : Result (Db × List Event)} {next : Holder}
    (sound : Sound s.db) (holds : s.holder.Holds s.db)
    (run : ∀ out, result = .ok out →
      Reaches locked allow s.db (out.2.filter Event.confirms) out.1 ∧
        (Steps (Change locked allow) s.db (out.2.filter Event.confirms) out.1 →
          next.Holds out.1)) : Covers allow locked s (s.commit result next) := by
  unfold System.commit
  split
  · exact Covers.refl locked holds
  · next db es =>
    obtain ⟨reaches, kept⟩ := run (db, es) rfl
    exact ⟨reaches sound, kept (reaches sound)⟩

theorem confirms_confirmations (j : Job) (settings : Settings) :
    (NodeOperations.confirmations j settings).filter Event.confirms =
      NodeOperations.confirmations j settings := by
  unfold NodeOperations.confirmations
  split
  · rfl
  · split <;> rfl

theorem finishSettings_confirms (db : Db) (now : Time) (actor : Uuid) (t : SettingsTask)
    (receipt : Option NodeSettings.Receipt) (changes : List (Uuid × List Target)) :
    (NodeSettingsExecutor.finish db now actor t receipt changes).2.filter Event.confirms =
      (NodeSettingsExecutor.finish db now actor t receipt changes).2 := by
  unfold NodeSettingsExecutor.finish
  split <;> rfl

theorem finishJob_confirms {db : Db} {now : Time} {actor : Uuid} {j : Job}
    {r : NodeOperations.Receipt} {changes : List (Uuid × List Target)} {out : Db × List Event}
    (done : NodeOperations.finish db now actor j r changes = .ok out) :
    out.2.filter Event.confirms = out.2 := by
  simp only [NodeOperations.finish, deny_ok] at done
  obtain ⟨_, rest⟩ := done
  split at rest
  · cases rest
    rfl
  · simp only [need_ok] at rest
    obtain ⟨settings, _, ended⟩ := rest
    cases ended
    exact confirms_confirmations j settings

/-- A blocked job that a repair reads. -/
theorem finishBlocked {db : Db} {now : Time} {actor id : Uuid} {j : Job}
    {r : NodeOperations.Receipt} {changes : List (Uuid × List Target)} {out : Db × List Event}
    (found : NodeOperations.find db.fleet id (· = .blocked) = some j)
    (allowed : allow db.fleet j)
    (done : NodeOperations.finish db now actor j r changes = .ok out) :
    Reaches true allow db out.2 out.1 := by
  intro sound
  obtain ⟨row, rfl, blocked⟩ := Reaches.find_job found
  refine Reaches.finishJob j.status row ?_ done sound
  intro k held
  obtain ⟨listed, same, _⟩ := Reaches.find_job held
  rw [sound.numbered.jobs.unique listed row same]
  exact allowed

theorem repair_covers {r : Repair} {out : Db × List Event}
    (allowed : ∀ k, s.completing (.repair r) = some k → allow s.db.fleet k)
    (done : r.exec s.db = .ok out) :
    Reaches true allow s.db (out.2.filter Event.confirms) out.1 := by
  cases r with
  | recoverTasks => cases done; exact Reaches.recoverTasks
  | recoverSettings => cases done; exact Reaches.recoverSettings
  | recoverJobs => cases done; exact Reaches.recoverJobs
  | repairRemoved => cases done; exact Reaches.fleet fun _ => .repair
  | expiryPass now changes =>
    cases done
    have none_ : ((IntentExecutor.queueExpiredProfiles s.db now changes).2.map
        fun r => Event.revoked r.1 r.2).filter Event.confirms = [] := by
      rw [List.filter_eq_nil_iff]
      intro e listed
      obtain ⟨r, _, rfl⟩ := List.mem_map.mp listed
      simp [Event.confirms]
    dsimp only
    rw [none_]
    exact Reaches.queueExpiredProfiles now changes
  | confirmTask id => cases done; exact Reaches.confirmTask id
  | confirmSettings now actor id receipt changes =>
    simp only [Repair.exec, need_ok] at done
    obtain ⟨t, found, ended⟩ := done
    obtain ⟨row, _, blocked⟩ := Reaches.find_settings found
    cases ended
    rw [finishSettings_confirms]
    exact Reaches.finishSettings row (by rw [blocked]; rfl)
  | confirmJob now actor id receipt changes =>
    simp only [Repair.exec, need_ok] at done
    obtain ⟨j, found, ended⟩ := done
    rw [finishJob_confirms ended]
    exact finishBlocked found (allowed j found) ended
  | resolveTask now actor id =>
    simp only [Repair.exec, need_ok, Repair.retired] at done
    obtain ⟨t, _, ended⟩ := done
    cases result : IntentExecutor.resolveBlocked s.db now actor id with
    | error code => rw [result] at ended; cases ended
    | ok next => rw [result] at ended; cases ended; exact Reaches.resolveTask result
  | resolveSettings id draw =>
    simp only [Repair.exec, need_ok, Repair.retired] at done
    obtain ⟨t, _, ended⟩ := done
    cases result : NodeSettingsExecutor.resolveBlocked s.db id draw with
    | error code => rw [result] at ended; cases ended
    | ok next => rw [result] at ended; cases ended; exact Reaches.resolveSettings result
  | resolveJob now actor id receipt changes =>
    simp only [Repair.exec, need_ok, Repair.retired] at done
    obtain ⟨j, found, ended⟩ := done
    cases receipt with
    | none => cases ended; exact Reaches.retireJob id
    | some r =>
      dsimp only at ended
      cases result : NodeOperations.finish s.db now actor j r changes with
      | error code => rw [result] at ended; cases ended
      | ok next =>
        rw [result] at ended
        cases ended
        have kept := finishJob_confirms result
        have run := finishBlocked found (allowed j found) result
        rw [← kept] at run
        exact run
  | cancelTask id =>
    simp only [Repair.exec, need_ok, Repair.retired] at done
    obtain ⟨t, _, ended⟩ := done
    cases result : ForceRecovery.cancelProfile s.db id with
    | error code => rw [result] at ended; cases ended
    | ok next => rw [result] at ended; cases ended; exact Reaches.cancelTask result
  | cancelSettings id =>
    simp only [Repair.exec, need_ok, Repair.retired] at done
    obtain ⟨t, _, ended⟩ := done
    cases result : ForceRecovery.cancelSettings s.db id with
    | error code => rw [result] at ended; cases ended
    | ok next => rw [result] at ended; cases ended; exact Reaches.cancelSettings result
  | cancelJob id coordinator =>
    simp only [Repair.exec, need_ok, Repair.retired] at done
    obtain ⟨j, _, ended⟩ := done
    cases result : ForceRecovery.cancelJob s.db id coordinator with
    | error code => rw [result] at ended; cases ended
    | ok next => rw [result] at ended; cases ended; exact Reaches.cancelJob result
  | cancelQueuedJob id => cases done; exact Reaches.cancelQueuedJob id
  | changeBootstrap id status => cases done; exact Reaches.notes _ _
  | skimSettings id terminal =>
    simp only [Repair.exec, need_ok, deny_ok] at done
    obtain ⟨t, _, _, ended⟩ := done
    cases ended
    exact Reaches.retireSettings id
  | drain now actor node =>
    dsimp only [Repair.exec] at done
    cases result : NodeLifecycle.startDrain s.db now actor node false with
    | error code => rw [result] at done; cases done
    | ok next => rw [result] at done; cases done; exact Reaches.startDrain result
  | startCleanup node =>
    dsimp only [Repair.exec] at done
    cases result : NodeLifecycle.startCleanup s.db node with
    | error code => rw [result] at done; cases done
    | ok next => rw [result] at done; cases done; exact Reaches.startCleanup result
  | retireVerified node =>
    dsimp only [Repair.exec] at done
    cases result : NodeLifecycle.retireVerified s.db node with
    | error code => rw [result] at done; cases done
    | ok next => rw [result] at done; cases done; exact Reaches.retireVerified result
  | settle =>
    cases done
    exact Reaches.settleDeletions.after Reaches.settleAccounts

theorem claimTask_covers (id : Uuid) (sound : Sound s.db) (holds : s.holder.Holds s.db) :
    Covers allow true s (s.claimTask id) := by
  unfold System.claimTask IntentExecutor.claim
  split
  · next none_ => exact Covers.refl true holds
  · next db claimed =>
    split at claimed
    · cases claimed
    · split at claimed
      · cases claimed
      · next t found =>
        split at claimed
        · cases claimed
          exact Covers.free sound (Reaches.retireObsolete found)
        · cases claimed
  · next db row claimed =>
    split at claimed
    · cases claimed
    · split at claimed
      · cases claimed
      · next t found =>
        split at claimed
        · cases claimed
        · next current =>
          cases claimed
          refine ⟨Reaches.claimTask found (by simpa using current) sound, ?_⟩
          have picked := List.find?_some found
          simp only [Bool.and_eq_true, decide_eq_true_eq] at picked
          have mine : IntentExecutor.byId id t = true := by
            simpa [IntentExecutor.byId] using picked.1.1
          refine ⟨{ t with status := .running }, ?_, rfl, rfl⟩
          refine List.mem_map.mpr ⟨t, List.mem_of_find?_eq_some found, ?_⟩
          rw [if_pos mine]

theorem claimSettings_covers {task : SettingsTask} {installed initialized : Bool}
    (terminal : Bool) (sound : Sound s.db)
    (holds : (Holder.inspecting task installed initialized).Holds s.db) :
    Covers allow true s (s.claimSettings task terminal) := by
  obtain ⟨queued, status, listed⟩ := holds
  unfold System.claimSettings
  cases found : NodeSettingsExecutor.find s.db.fleet task.id .awaitingExecutor with
  | none =>
    have same : NodeSettingsExecutor.claim s.db task terminal = (s.db.fleet, false) := by
      unfold NodeSettingsExecutor.claim
      rw [found]
      simp
    rw [same]
    exact ⟨Steps.refl _, trivial⟩
  | some row =>
    obtain ⟨member, same, waits⟩ := Reaches.find_settings found
    have itself : row = { task with status := status } :=
      sound.numbered.settings.unique member listed same
    have is : row = task := by
      rw [itself] at waits ⊢
      dsimp only at waits
      rw [waits, ← queued]
    subst is
    refine ⟨Reaches.claimSettings member queued terminal sound, ?_⟩
    unfold NodeSettingsExecutor.claim
    split
    · trivial
    · split
      · trivial
      · split
        · refine List.mem_map.mpr ⟨row, member, ?_⟩
          rw [if_pos rfl]
        · trivial

theorem exec_covers (c : Call) (sound : Sound s.db) (holds : s.holder.Holds s.db)
    (allowed : ∀ k, s.completing c = some k → allow s.db.fleet k) :
    Covers allow c.locked s (s.exec c) := by
  have still : ∀ locked, Covers allow locked s (s, []) := fun locked => Covers.refl locked holds
  unfold System.exec
  cases c with
  | request r =>
    refine Covers.commit sound holds fun out done => ?_
    cases result : r.exec s.db with
    | error code => rw [result] at done; cases done
    | ok next =>
      rw [result] at done
      cases done
      exact ⟨Reaches.request result, fun run => holds.steps sound run⟩
  | repair r =>
    dsimp only
    split
    · exact Covers.commit sound holds fun out done =>
        ⟨repair_covers allowed done, fun _ => trivial⟩
    · exact still _
  | claimTask id =>
    dsimp only
    split
    · exact claimTask_covers id sound holds
    · exact still _
  | sendTask now =>
    dsimp only
    split
    · next row claimed =>
      unfold System.sendTask
      rw [claimed] at holds
      split
      · exact Covers.free sound Reaches.finishTask
      · exact ⟨Steps.refl _, holds⟩
    · exact still _
  | finishTask succeeded =>
    dsimp only
    split
    · exact Covers.free sound Reaches.finishTask
    · exact still _
  | inspectNode id terminal =>
    dsimp only
    split
    · unfold System.inspectNode
      split
      · exact still _
      · next task found =>
        split
        · obtain ⟨row, _, queued⟩ := Reaches.find_settings found
          exact ⟨Steps.refl _, queued, task.status, row⟩
        · exact still _
    · exact still _
  | prepareNode =>
    dsimp only
    split
    · unfold System.prepareNode
      split
      · exact ⟨Steps.refl _, holds⟩
      · exact still _
    · exact still _
  | retireUninstalled =>
    dsimp only
    split
    · unfold System.retireUninstalled
      split
      · exact still _
      · exact Covers.free sound (Reaches.retireSettings _)
    · exact still _
  | claimSettings terminal =>
    dsimp only
    split
    · next task installed initialized claimed =>
      rw [claimed] at holds
      exact claimSettings_covers terminal sound holds
    · exact still _
  | sendSettings =>
    dsimp only
    split
    · next task claimed =>
      rw [claimed] at holds
      exact ⟨Steps.refl _, holds⟩
    · exact still _
  | finishSettings now actor receipt changes =>
    dsimp only
    split
    · next task claimed =>
      unfold System.finishSettings
      split
      · exact ⟨Steps.refl _, trivial⟩
      · next current found =>
        refine Covers.commit sound holds fun out done => ?_
        cases done
        obtain ⟨row, _, running⟩ := Reaches.find_settings found
        rw [finishSettings_confirms]
        exact ⟨Reaches.finishSettings row (by rw [running]; rfl), fun _ => trivial⟩
    · exact still _
  | claimJob id =>
    dsimp only
    split
    · unfold System.claimJob
      split
      · exact still _
      · next j found =>
        split
        · exact still _
        · obtain ⟨row, same, _⟩ := Reaches.find_job found
          refine ⟨Reaches.claimJob found sound, List.mem_map.mpr ⟨j, row, ?_⟩⟩
          rw [if_pos (by simpa using same)]
    · exact still _
  | sendJob =>
    dsimp only
    split
    · next j claimed =>
      rw [claimed] at holds
      unfold System.sendJob
      refine ⟨?_, holds⟩
      dsimp only
      split <;> exact Steps.refl _
    · exact still _
  | finishJob now actor receipt changes =>
    dsimp only
    split
    · next j claimed =>
      refine Covers.commit sound holds fun out done => ⟨?_, fun _ => trivial⟩
      rw [finishJob_confirms done]
      rw [claimed] at holds
      refine Reaches.finishJob .running holds (fun k found => allowed k ?_) done
      simp only [System.completing, claimed]
      exact found
    · exact still _
  | failJob ownerConflict =>
    dsimp only
    split
    · exact Covers.free sound (Reaches.failJob ownerConflict)
    · exact still _
  | abandonNode now actor node =>
    dsimp only
    split
    · refine Covers.commit sound holds fun out done => ?_
      cases result : admitted s.db (deny (s.db.fleet.retired node) "retirement_conflict"
          (NodeLifecycle.startDrain s.db now actor node true)) with
      | error code => rw [result] at done; cases done
      | ok next =>
        rw [result] at done
        cases done
        simp only [admitted_ok, deny_ok] at result
        exact ⟨Reaches.startDrain result.2.2.2, fun _ =>
          Reaches.startDrain_drains result.2.2.2⟩
    · exact still _
  | retireNode =>
    dsimp only
    split
    · next node claimed =>
      refine Covers.commit sound holds fun out done => ⟨?_, fun _ => trivial⟩
      rw [claimed] at holds
      cases result : NodeLifecycle.retireRegistryOnly s.db node with
      | error code => rw [result] at done; cases done
      | ok next =>
        rw [result] at done
        cases done
        exact Reaches.retireRegistryOnly (draining_iff.mpr holds) result
    · exact still _
  | crash => exact ⟨Steps.refl _, trivial⟩

/-! What a call reports. -/

inductive Reported (s : System) : Call → Event → Prop
  | claimed {id : Uuid} {next : Db} {row : TaskRow} (free : s.holder = .free)
      (claim : IntentExecutor.claim s.db id = some (next, some row)) :
    Reported s (.claimTask id) (.claimed row (IntentExecutor.unwanted s.db.fleet row))
  | executed {now : Time} {row : TaskRow} (claimed : s.holder = .operation row false)
      (live : IntentExecutor.lapsed now row = false) :
    Reported s (.sendTask now) (.executed row)
  | applied {task : SettingsTask} (claimed : s.holder = .settings task false) :
    Reported s .sendSettings (.applied task)
  | acted {j : Job} (claimed : s.holder = .job j false) : Reported s .sendJob (.acted j)
  | prepared {task : SettingsTask} {installed initialized : Bool}
      (inspected : s.holder = .inspecting task installed initialized) :
    Reported s .prepareNode (.prepared task.node)
  | retiredTask {r : Repair} {t : Task} (listed : t ∈ s.db.outbox.tasks)
      (blocked : t.status = .blocked) :
    Reported s (.repair r) (.retiredCommand .operations t.row.node)
  | retiredSettings {r : Repair} {t : SettingsTask} (listed : t ∈ s.db.fleet.settingsTasks)
      (blocked : t.status = .blocked) :
    Reported s (.repair r) (.retiredCommand .settings t.node)
  | retiredJob {r : Repair} {j : Job} (listed : j ∈ s.db.fleet.jobs)
      (blocked : j.status = .blocked) : Reported s (.repair r) (.retiredCommand .jobs j.node)
  | revoked {now : Time} {changes : List (Uuid × List Target)} {profile : Uuid} {revision : ℕ}
      (queued : (profile, revision) ∈ (IntentExecutor.queueExpiredProfiles s.db now changes).2) :
    Reported s (.repair (.expiryPass now changes)) (.revoked profile revision)
  | confirms {c : Call} {e : Event} (shown : e.confirms = true) : Reported s c e

theorem reports_confirms {c : Call} {es : List Event} (same : es.filter Event.confirms = es)
    {e : Event} (listed : e ∈ es) : Reported s c e :=
  .confirms (List.filter_eq_self.mp same e listed)

/-- A repair hands out only the retirement of a blocked command. -/
theorem repair_reports {r : Repair} {out : Db × List Event} (done : r.exec s.db = .ok out)
    {e : Event} (listed : e ∈ out.2) : Reported s (.repair r) e := by
  have retired : ∀ {queue : Queue} {node : NodeKey} {result : Result Db},
      Repair.retired queue node result = .ok out → e = .retiredCommand queue node := by
    intro queue node result ended
    cases result with
    | error code => cases ended
    | ok next =>
      cases ended
      exact List.mem_singleton.mp listed
  have task : ∀ {id : Uuid} {t : Task}, (s.db.outbox.tasks.find? fun t =>
      IntentExecutor.byId id t && t.status = .blocked) = some t →
      Reported s (.repair r) (.retiredCommand .operations t.row.node) := by
    intro id t found
    have picked := List.find?_some found
    simp only [Bool.and_eq_true, decide_eq_true_eq] at picked
    exact .retiredTask (List.mem_of_find?_eq_some found) picked.2
  have settings : ∀ {id : Uuid} {t : SettingsTask},
      NodeSettingsExecutor.find s.db.fleet id .blocked = some t →
      Reported s (.repair r) (.retiredCommand .settings t.node) := by
    intro id t found
    obtain ⟨row, _, blocked⟩ := Reaches.find_settings found
    exact .retiredSettings row blocked
  have job : ∀ {id : Uuid} {j : Job},
      NodeOperations.find s.db.fleet id (· = .blocked) = some j →
      Reported s (.repair r) (.retiredCommand .jobs j.node) := by
    intro id j found
    obtain ⟨row, _, blocked⟩ := Reaches.find_job found
    exact .retiredJob row (by simpa using blocked)
  cases r with
  | expiryPass now changes =>
    cases done
    obtain ⟨r, queued, rfl⟩ := List.mem_map.mp listed
    exact .revoked queued
  | confirmSettings now actor id receipt changes =>
    simp only [Repair.exec, need_ok] at done
    obtain ⟨t, _, ended⟩ := done
    cases ended
    exact reports_confirms (finishSettings_confirms s.db now actor t receipt changes) listed
  | confirmJob now actor id receipt changes =>
    simp only [Repair.exec, need_ok] at done
    obtain ⟨j, _, ended⟩ := done
    exact reports_confirms (finishJob_confirms ended) listed
  | resolveTask now actor id =>
    simp only [Repair.exec, need_ok] at done
    obtain ⟨t, found, ended⟩ := done
    rw [retired ended]
    exact task found
  | resolveSettings id draw =>
    simp only [Repair.exec, need_ok] at done
    obtain ⟨t, found, ended⟩ := done
    rw [retired ended]
    exact settings found
  | resolveJob now actor id receipt changes =>
    simp only [Repair.exec, need_ok] at done
    obtain ⟨j, found, ended⟩ := done
    cases receipt with
    | none =>
      rw [retired ended]
      exact job found
    | some r =>
      dsimp only at ended
      cases result : NodeOperations.finish s.db now actor j r changes with
      | error code => rw [result] at ended; cases ended
      | ok next =>
        rw [result] at ended
        cases ended
        rcases List.mem_cons.mp listed with rfl | later
        · exact job found
        · exact reports_confirms (finishJob_confirms result) later
  | cancelTask id =>
    simp only [Repair.exec, need_ok] at done
    obtain ⟨t, found, ended⟩ := done
    rw [retired ended]
    exact task found
  | cancelSettings id =>
    simp only [Repair.exec, need_ok] at done
    obtain ⟨t, found, ended⟩ := done
    rw [retired ended]
    exact settings found
  | cancelJob id coordinator =>
    simp only [Repair.exec, need_ok] at done
    obtain ⟨j, found, ended⟩ := done
    rw [retired ended]
    exact job found
  | skimSettings id terminal =>
    simp only [Repair.exec, need_ok, deny_ok] at done
    obtain ⟨t, _, _, ended⟩ := done
    cases ended
    cases listed
  | drain now actor node =>
    dsimp only [Repair.exec] at done
    cases result : NodeLifecycle.startDrain s.db now actor node false with
    | error code => rw [result] at done; cases done
    | ok next => rw [result] at done; cases done; cases listed
  | startCleanup node =>
    dsimp only [Repair.exec] at done
    cases result : NodeLifecycle.startCleanup s.db node with
    | error code => rw [result] at done; cases done
    | ok next => rw [result] at done; cases done; cases listed
  | retireVerified node =>
    dsimp only [Repair.exec] at done
    cases result : NodeLifecycle.retireVerified s.db node with
    | error code => rw [result] at done; cases done
    | ok next => rw [result] at done; cases done; cases listed
  | _ => cases done; cases listed

theorem exec_reports {c : Call} {e : Event} (listed : e ∈ (s.exec c).2) : Reported s c e := by
  have commits : ∀ {result : Result (Db × List Event)} {next : Holder},
      (∀ out, result = .ok out → e ∈ out.2 → Reported s c e) →
      e ∈ (s.commit result next).2 → Reported s c e := by
    intro result next each member
    unfold System.commit at member
    split at member
    · cases member
    · exact each _ rfl member
  have silent : ∀ {result : Result Db} {next : Holder},
      e ∈ (s.commit (result.map fun db => (db, [])) next).2 → Reported s c e := by
    intro result next member
    refine commits (fun out done inside => ?_) member
    cases result with
    | error code => cases done
    | ok db =>
      cases done
      cases inside
  unfold System.exec at listed
  cases c with
  | request r => exact silent listed
  | repair r =>
    dsimp only at listed
    split at listed
    · exact commits (fun out done inside => repair_reports done inside) listed
    · cases listed
  | claimTask id =>
    unfold System.claimTask at listed
    dsimp only at listed
    split at listed
    · next free =>
      split at listed
      · cases listed
      · cases listed
      · next db row claim =>
        rw [List.mem_singleton.mp listed]
        exact .claimed free claim
    · cases listed
  | sendTask now =>
    unfold System.sendTask at listed
    dsimp only at listed
    split at listed
    · next row claimed =>
      split at listed
      · cases listed
      · next live =>
        rw [List.mem_singleton.mp listed]
        exact .executed claimed (by simpa using live)
    · cases listed
  | finishTask succeeded =>
    dsimp only at listed
    split at listed <;> cases listed
  | inspectNode id terminal =>
    unfold System.inspectNode at listed
    dsimp only at listed
    split at listed
    · split at listed
      · cases listed
      · split at listed <;> cases listed
    · cases listed
  | prepareNode =>
    unfold System.prepareNode at listed
    dsimp only at listed
    split at listed
    · next task installed initialized inspected =>
      split at listed
      · rw [List.mem_singleton.mp listed]
        exact .prepared inspected
      · cases listed
    · cases listed
  | retireUninstalled =>
    unfold System.retireUninstalled at listed
    dsimp only at listed
    split at listed
    · split at listed <;> cases listed
    · cases listed
  | claimSettings terminal =>
    unfold System.claimSettings at listed
    dsimp only at listed
    split at listed <;> cases listed
  | sendSettings =>
    dsimp only at listed
    split at listed
    · next task claimed =>
      rw [List.mem_singleton.mp listed]
      exact .applied claimed
    · cases listed
  | finishSettings now actor receipt changes =>
    unfold System.finishSettings at listed
    dsimp only at listed
    split at listed
    · split at listed
      · cases listed
      · next current _ =>
        refine commits (fun out done inside => ?_) listed
        cases done
        exact reports_confirms
          (finishSettings_confirms s.db now actor current receipt changes) inside
    · cases listed
  | claimJob id =>
    unfold System.claimJob at listed
    dsimp only at listed
    split at listed
    · split at listed
      · cases listed
      · split at listed <;> cases listed
    · cases listed
  | sendJob =>
    unfold System.sendJob at listed
    dsimp only at listed
    split at listed
    · next j claimed =>
      dsimp only at listed
      split at listed
      · cases listed
      · rw [List.mem_singleton.mp listed]
        exact .acted claimed
    · cases listed
  | finishJob now actor receipt changes =>
    dsimp only at listed
    split at listed
    · exact commits (fun out done inside =>
        reports_confirms (finishJob_confirms done) inside) listed
    · cases listed
  | failJob ownerConflict =>
    dsimp only at listed
    split at listed <;> cases listed
  | abandonNode now actor node =>
    dsimp only at listed
    split at listed
    · exact silent listed
    · cases listed
  | retireNode =>
    dsimp only at listed
    split at listed
    · exact silent listed
    · cases listed
  | crash => cases listed

/-- Reachable states are sound, and their holder's row is there. -/
theorem after_sound (calls : List Call) :
    Sound (after calls).db ∧ (after calls).holder.Holds (after calls).db := by
  refine @run_invariant _ _ _ exec (fun _ s => Sound s.db ∧ s.holder.Holds s.db) ?_ [] start
    ⟨Sound.empty, trivial⟩ calls
  rintro _ s c ⟨sound, holds⟩
  have covers : Covers (fun _ _ => True) c.locked s (s.exec c) :=
    exec_covers c sound holds fun _ _ => trivial
  exact ⟨sound.steps covers.run, covers.holds⟩

end Calls
end System
end Controller
end NodePlane
