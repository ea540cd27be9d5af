import NodePlane.Controller.Refinement.Calls

/-! One queue at a time: in every run each node is held by at most one row of the three
queues, and a command goes out only while the other queues leave its node alone. -/
namespace NodePlane
namespace Controller
namespace QueueExclusion
open Library

/-- The rows that hold a node: operation tasks and settings tasks that are running or
blocked, and jobs that have not ended. -/
def holding (db : Db) (node : NodeKey) : ℕ :=
  (db.outbox.tasks.filter fun t => t.row.node = node && t.status.held).length +
    (db.fleet.settingsTasks.filter fun s => s.node = node && s.status.held).length +
    (db.fleet.jobs.filter fun j => j.node = node && j.status.pending).length

/-- No row of the other queues holds the node of a command that is handed out. Before a
settings task is claimed its node may be prepared; then a job may at most be queued. -/
def Alone (db : Db) : Event → Prop
  | .executed row => db.fleet.settingsHeld row.node = false ∧ db.fleet.jobPending row.node = false
  | .applied task => taskHeld db task.node = false ∧ db.fleet.jobPending task.node = false
  | .acted job => taskHeld db job.node = false ∧ db.fleet.settingsHeld job.node = false
  | .retiredCommand .operations node =>
    db.fleet.settingsHeld node = false ∧ db.fleet.jobPending node = false
  | .retiredCommand .settings node => taskHeld db node = false ∧ db.fleet.jobPending node = false
  | .retiredCommand .jobs node => taskHeld db node = false ∧ db.fleet.settingsHeld node = false
  | .prepared node => taskHeld db node = false ∧ db.fleet.settingsHeld node = false ∧
      db.fleet.jobHeld node = false
  | _ => True

theorem jobHeld_false {f : Fleet} {node : NodeKey} :
    f.jobHeld node = false ↔ ∀ j ∈ f.jobs, j.node = node → j.status.held = false := by
  simp [Fleet.jobHeld]

/-! Counting. -/

theorem length_le_one {ρ : Type} {rows : List ρ} {key : ρ → Uuid} {bound : Uuid} {p : ρ → Bool}
    (drawn : Drawn (rows.map key) bound)
    (same : ∀ r ∈ rows, ∀ q ∈ rows, p r = true → p q = true → key r = key q) :
    (rows.filter p).length ≤ 1 := by
  have nodup : (rows.filter p).Nodup :=
    (List.Nodup.of_map key drawn.nodup).sublist List.filter_sublist
  match shape : rows.filter p with
  | [] => simp
  | [r] => simp
  | r :: q :: rest =>
    have first : r ∈ rows.filter p := by rw [shape]; simp
    have second : q ∈ rows.filter p := by rw [shape]; simp
    obtain ⟨inR, pr⟩ := List.mem_filter.mp first
    obtain ⟨inQ, pq⟩ := List.mem_filter.mp second
    have equal := drawn.unique inR inQ (same r inR q inQ pr pq)
    rw [shape, equal] at nodup
    simp at nodup

theorem holding_le_one {db : Db} (sound : Sound db) (node : NodeKey) : holding db node ≤ 1 := by
  have ex := sound.exclusive
  have tasks := length_le_one (p := fun t : Task => t.row.node = node && t.status.held)
    sound.numbered.tasks (fun t one u two p q => by
      simp only [Bool.and_eq_true, decide_eq_true_eq] at p q
      exact ex.tasks t one u two (p.1.trans q.1.symm) p.2 q.2)
  have settings := length_le_one (p := fun s : SettingsTask => s.node = node && s.status.held)
    sound.numbered.settings (fun s one t two p q => by
      simp only [Bool.and_eq_true, decide_eq_true_eq] at p q
      exact ex.settings s one t two (p.1.trans q.1.symm) (Status.pending_of_held p.2)
        (Status.pending_of_held q.2))
  have jobs := length_le_one (p := fun j : Job => j.node = node && j.status.pending)
    sound.numbered.jobs (fun j one k two p q => by
      simp only [Bool.and_eq_true, decide_eq_true_eq] at p q
      exact ex.jobs j one k two (p.1.trans q.1.symm) p.2 q.2)
  -- A row of one queue leaves the other two empty.
  have settingsTasks : 0 < (db.fleet.settingsTasks.filter fun s =>
      s.node = node && s.status.held).length →
      (db.outbox.tasks.filter fun t => t.row.node = node && t.status.held).length = 0 := by
    intro some_
    obtain ⟨s, held⟩ := List.exists_mem_of_length_pos some_
    obtain ⟨listed, ps⟩ := List.mem_filter.mp held
    simp only [Bool.and_eq_true, decide_eq_true_eq] at ps
    rw [List.length_eq_zero_iff, List.filter_eq_nil_iff]
    intro t member pt
    simp only [Bool.and_eq_true, decide_eq_true_eq] at pt
    have clear := ex.settingsTasks s listed t member (ps.1.trans pt.1.symm) ps.2
    rw [clear] at pt
    cases pt.2
  have jobsOthers : 0 < (db.fleet.jobs.filter fun j => j.node = node && j.status.pending).length →
      (db.outbox.tasks.filter fun t => t.row.node = node && t.status.held).length = 0 ∧
      (db.fleet.settingsTasks.filter fun s => s.node = node && s.status.held).length = 0 := by
    intro some_
    obtain ⟨j, held⟩ := List.exists_mem_of_length_pos some_
    obtain ⟨listed, pj⟩ := List.mem_filter.mp held
    simp only [Bool.and_eq_true, decide_eq_true_eq] at pj
    rw [List.length_eq_zero_iff, List.filter_eq_nil_iff, List.length_eq_zero_iff,
      List.filter_eq_nil_iff]
    constructor
    · intro t member pt
      simp only [Bool.and_eq_true, decide_eq_true_eq] at pt
      have clear := ex.jobTasks j listed t member (pj.1.trans pt.1.symm) pj.2
      rw [clear] at pt
      cases pt.2
    · intro s member ps
      simp only [Bool.and_eq_true, decide_eq_true_eq] at ps
      have clear := ex.jobSettings j listed s member (pj.1.trans ps.1.symm) pj.2
      rw [Status.pending_of_held ps.2] at clear
      cases clear
  unfold holding
  omega

/-! Commands. -/

/-- Without the lock no row becomes held. -/
theorem idle_step {allow : Fleet → Job → Prop} {db next : Db} {es : List Event}
    (numbered : Numbered db) (change : Change false allow db es next) {node : NodeKey}
    (idle : taskHeld db node = false ∧ db.fleet.settingsHeld node = false ∧
      db.fleet.jobHeld node = false) :
    taskHeld next node = false ∧ next.fleet.settingsHeld node = false ∧
      next.fleet.jobHeld node = false := by
  obtain ⟨tasks, settings, jobs⟩ := idle
  refine ⟨?_, ?_, ?_⟩
  · rw [taskHeld_false] at tasks ⊢
    intro u listed same
    rcases change.task_from numbered listed with ⟨t, old, step⟩ | recorded
    · rw [step.row] at same
      cases step with
      | moves h =>
        by_contra held
        have clear := tasks t old same
        rw [h.status.held (by simpa using held)] at clear
        cases clear
      | claimed held => cases held
    · obtain ⟨_, _, _, _, _, _, _, new⟩ := recorded
      rw [created_awaiting new]
      rfl
  · rw [settingsHeld_false] at settings ⊢
    intro t listed same
    rcases change.settings_from numbered listed with ⟨s, old, step⟩ | new
    · rw [step.shape] at same
      cases step with
      | moves h =>
        by_contra held
        have clear := settings s old same
        rw [h.status.held (by simpa using held)] at clear
        cases clear
      | claimed held => cases held
    · rw [new]
      rfl
  · rw [jobHeld_false] at jobs ⊢
    intro k listed same
    rcases change.job_from numbered listed with ⟨j, old, step⟩ | new
    · rw [step.shape] at same
      cases step with
      | moves h =>
        by_contra held
        have clear := jobs j old same
        rw [h.status.held (by simpa using held)] at clear
        cases clear
      | claimed held => cases held
    · rw [new]
      rfl

/-- The node that the holder is asking is left alone by every claimed command. -/
def Quiet (db : Db) : Holder → Prop
  | .inspecting task _ _ => taskHeld db task.node = false ∧
      db.fleet.settingsHeld task.node = false ∧ db.fleet.jobHeld task.node = false
  | _ => True

theorem idle_steps {allow : Fleet → Job → Prop} {db next : Db} {es : List Event}
    (sound : Sound db) (ran : Steps (Change false allow) db es next) {node : NodeKey}
    (idle : taskHeld db node = false ∧ db.fleet.settingsHeld node = false ∧
      db.fleet.jobHeld node = false) :
    taskHeld next node = false ∧ next.fleet.settingsHeld node = false ∧
      next.fleet.jobHeld node = false := by
  induction ran with
  | refl => exact idle
  | head step _ ih => exact ih (sound.step step) (idle_step sound.numbered step idle)

/-- A queued settings task that is due leaves no other command on its node. -/
theorem quiet_of_ready {db : Db} (sound : Sound db) {task : SettingsTask} {terminal : Bool}
    (row : task ∈ db.fleet.settingsTasks) (queued : task.status = .awaitingExecutor)
    (ready : NodeSettingsExecutor.ready db task terminal = true) :
    taskHeld db task.node = false ∧ db.fleet.settingsHeld task.node = false ∧
      db.fleet.jobHeld task.node = false := by
  simp only [NodeSettingsExecutor.ready, Bool.and_eq_true, Bool.not_eq_true'] at ready
  have open_ : task.status.pending = true := by rw [queued]; rfl
  refine ⟨ready.2, ?_, ?_⟩
  · rw [settingsHeld_false]
    intro s listed same
    by_contra held
    have busy : s.status.held = true := by simpa using held
    have equal := sound.exclusive.settings s listed task row same
      (Status.pending_of_held busy) open_
    rw [sound.numbered.settings.unique listed row equal, queued] at busy
    cases busy
  · rw [jobHeld_false]
    intro j listed same
    by_contra held
    have clear := sound.exclusive.jobSettings j listed task row same
      (Status.pending_of_held (by simpa using held))
    rw [open_] at clear
    cases clear

theorem Quiet.steps {allow : Fleet → Job → Prop} {db next : Db} {es : List Event} {h : Holder}
    (quiet : Quiet db h) (sound : Sound db) (ran : Steps (Change false allow) db es next) :
    Quiet next h := by
  cases h with
  | inspecting task installed initialized => exact idle_steps sound ran quiet
  | _ => trivial

theorem exec_quiet {s : System} (c : Call) (sound : Sound s.db)
    (holds : s.holder.Holds s.db) (quiet : Quiet s.db s.holder) :
    Quiet (s.exec c).1.db (s.exec c).1.holder := by
  have covers : System.Covers (fun _ _ => True) c.locked s (s.exec c) :=
    System.exec_covers c sound holds fun _ _ => trivial
  have run := covers.run
  generalize out : (s.exec c).1 = next at run
  have moved : Handover s c next := out ▸ exec_handover s c
  cases moved with
  | kept => exact quiet
  | request => exact quiet.steps sound run
  | inspects found due =>
    obtain ⟨row, _, queued⟩ := Reaches.find_settings found
    exact quiet_of_ready sound row queued due
  | _ => trivial

theorem after_quiet (calls : List Call) :
    Quiet (System.after calls).db (System.after calls).holder := by
  have both := @run_invariant _ _ _ System.exec
    (fun _ s => (Sound s.db ∧ s.holder.Holds s.db) ∧ Quiet s.db s.holder) ?_ [] System.start
    ⟨⟨Sound.empty, trivial⟩, trivial⟩ calls
  · exact both.2
  · rintro _ s c ⟨⟨sound, holds⟩, quiet⟩
    have covers : System.Covers (fun _ _ => True) c.locked s (s.exec c) :=
      System.exec_covers c sound holds fun _ _ => trivial
    exact ⟨⟨sound.steps covers.run, covers.holds⟩, exec_quiet c sound holds quiet⟩

/-! The rows behind the commands. -/

theorem alone_task {db : Db} (ex : Exclusive db) {t : Task} (listed : t ∈ db.outbox.tasks)
    (held : t.status.held = true) :
    db.fleet.settingsHeld t.row.node = false ∧ db.fleet.jobPending t.row.node = false := by
  rw [settingsHeld_false, jobPending_false]
  constructor
  · intro s member same
    by_contra busy
    rw [ex.settingsTasks s member t listed same (by simpa using busy)] at held
    cases held
  · intro j member same
    by_contra busy
    rw [ex.jobTasks j member t listed same (by simpa using busy)] at held
    cases held

theorem alone_settings {db : Db} (ex : Exclusive db) {s : SettingsTask}
    (listed : s ∈ db.fleet.settingsTasks) (held : s.status.held = true) :
    taskHeld db s.node = false ∧ db.fleet.jobPending s.node = false := by
  rw [taskHeld_false, jobPending_false]
  constructor
  · exact fun t member same => ex.settingsTasks s listed t member same.symm held
  · intro j member same
    by_contra busy
    have clear := ex.jobSettings j member s listed same (by simpa using busy)
    rw [Status.pending_of_held held] at clear
    cases clear

theorem alone_job {db : Db} (ex : Exclusive db) {j : Job} (listed : j ∈ db.fleet.jobs)
    (open_ : j.status.pending = true) :
    taskHeld db j.node = false ∧ db.fleet.settingsHeld j.node = false := by
  rw [taskHeld_false, settingsHeld_false]
  constructor
  · exact fun t member same => ex.jobTasks j listed t member same.symm open_
  · intro s member same
    by_contra busy
    have clear := ex.jobSettings j listed s member same.symm open_
    rw [Status.pending_of_held (by simpa using busy)] at clear
    cases clear

theorem exec_alone {s : System} {c : Call} (sound : Sound s.db) (holds : s.holder.Holds s.db)
    (quiet : Quiet s.db s.holder) {e : Event} (listed : e ∈ (s.exec c).2) : Alone s.db e := by
  have ex := sound.exclusive
  cases System.exec_reports listed with
  | executed claimed live =>
    rw [claimed] at holds
    obtain ⟨t, member, rfl, running⟩ := holds
    exact alone_task ex member (by rw [running]; rfl)
  | @applied task claimed =>
    rw [claimed] at holds
    have row : { task with status := .running } ∈ s.db.fleet.settingsTasks := holds
    have alone := alone_settings ex row rfl
    exact alone
  | @acted j claimed =>
    rw [claimed] at holds
    have row : { j with status := .running } ∈ s.db.fleet.jobs := holds
    have alone := alone_job ex row rfl
    exact alone
  | prepared inspected =>
    rw [inspected] at quiet
    exact quiet
  | retiredTask member blocked => exact alone_task ex member (by rw [blocked]; rfl)
  | retiredSettings member blocked => exact alone_settings ex member (by rw [blocked]; rfl)
  | retiredJob member blocked => exact alone_job ex member (by rw [blocked]; rfl)
  | confirms shown =>
    cases e with
    | wrote node revision runtime => trivial
    | cleaned node revision => trivial
    | _ => cases shown
  | _ => trivial

/-- In every reachable state at most one row of the three queues holds each node, and
whatever call comes next, a command that it hands out has its node to itself. -/
theorem one_queue_at_a_time (calls : List Call) :
    (∀ node, holding (System.after calls).db node ≤ 1) ∧
      ∀ call, ∀ e ∈ ((System.after calls).exec call).2, Alone (System.after calls).db e := by
  obtain ⟨sound, holds⟩ := System.after_sound calls
  exact ⟨holding_le_one sound, fun call e listed =>
    exec_alone sound holds (after_quiet calls) listed⟩

/-- An edit between the inspection of a node and its preparation retires the settings
task, and makes room for a job. -/
def displaced : List Call :=
  [.request (.createNode 0 0 "n" [.awg] [] (Settings.empty.set .publicHost (.text "h")) 0 []),
    .request (.installed "n"),
    .request (.queueSettings 0 0 "n" 1 0),
    .inspectNode 0 true,
    .request (.editNode 0 0 "n" 1 ⟨none, none, none, false⟩ (0, 0) []),
    .request (.queueJob "n" .installDocker 2 none 0)]

def prepares (node : NodeKey) : Event → Bool
  | .prepared n => n = node
  | _ => false

theorem prepared_beside_job :
    (System.after displaced).db.fleet.jobPending "n" = true ∧
      (((System.after displaced).exec .prepareNode).2.any (prepares "n")) = true := by
  decide

end QueueExclusion
end Controller
end NodePlane
