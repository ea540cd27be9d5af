import NodePlane.Controller.Rows

/-! The three queues of a node exclude each other: an invariant of every change. -/
namespace NodePlane
namespace Controller
open Library

section Kept
variable {locked : Bool} {allow : Fleet → Job → Prop} {db next : Db} {es : List Event}

structure Exclusive (db : Db) : Prop where
  settings : ∀ s ∈ db.fleet.settingsTasks, ∀ t ∈ db.fleet.settingsTasks, s.node = t.node →
    s.status.pending = true → t.status.pending = true → s.id = t.id
  jobs : ∀ j ∈ db.fleet.jobs, ∀ k ∈ db.fleet.jobs, j.node = k.node →
    j.status.pending = true → k.status.pending = true → j.id = k.id
  jobSettings : ∀ j ∈ db.fleet.jobs, ∀ s ∈ db.fleet.settingsTasks, j.node = s.node →
    j.status.pending = true → s.status.pending = false
  jobTasks : ∀ j ∈ db.fleet.jobs, ∀ t ∈ db.outbox.tasks, j.node = t.row.node →
    j.status.pending = true → t.status.held = false
  settingsTasks : ∀ s ∈ db.fleet.settingsTasks, ∀ t ∈ db.outbox.tasks, s.node = t.row.node →
    s.status.held = true → t.status.held = false
  tasks : ∀ t ∈ db.outbox.tasks, ∀ u ∈ db.outbox.tasks, t.row.node = u.row.node →
    t.status.held = true → u.status.held = true → t.row.id = u.row.id

theorem created_awaiting {now : Time} {actor profile : Uuid} {previous : List Target}
    {scope : Option (List Target)} {u : Task}
    (new : u ∈ OperationRepository.created db now actor profile previous scope) :
    u.status = .awaitingExecutor := by
  obtain ⟨_, _, _, _, _, _, status, _⟩ := OperationRepository.created_task new
  exact status

/-- Tasks that move on without a claim leave the queues exclusive. -/
theorem Exclusive.of_tasks (ex : Exclusive db) (fleet : next.fleet = db.fleet)
    (from_ : ∀ u ∈ next.outbox.tasks, u.status.held = true →
      ∃ t ∈ db.outbox.tasks, t.row = u.row ∧ t.status.held = true) : Exclusive next where
  settings := by rw [fleet]; exact ex.settings
  jobs := by rw [fleet]; exact ex.jobs
  jobSettings := by rw [fleet]; exact ex.jobSettings
  jobTasks := by
    intro j listed u new same pending
    rw [fleet] at listed
    by_contra held
    obtain ⟨t, old, row, was⟩ := from_ u new (by simpa using held)
    rw [ex.jobTasks j listed t old (by rw [same, row]) pending] at was
    cases was
  settingsTasks := by
    intro s listed u new same busy
    rw [fleet] at listed
    by_contra held
    obtain ⟨t, old, row, was⟩ := from_ u new (by simpa using held)
    rw [ex.settingsTasks s listed t old (by rw [same, row]) busy] at was
    cases was
  tasks := by
    intro u new v newer same one two
    obtain ⟨t, old, row, was⟩ := from_ u new one
    obtain ⟨w, older, rows, wasToo⟩ := from_ v newer two
    rw [← row, ← rows]
    exact ex.tasks t old w older (by rw [row, rows, same]) was wasToo

/-- Queues whose rows only move on stay exclusive beside the same outbox. -/
theorem Exclusive.of_fleet {f : Fleet} (ex : Exclusive db)
    (settings : ∀ t ∈ f.settingsTasks, ∃ s ∈ db.fleet.settingsTasks, SettingsStep locked db s t)
    (jobs : ∀ k ∈ f.jobs, ∃ j ∈ db.fleet.jobs, JobStep locked j k) :
    Exclusive { db with fleet := f } where
  settings := by
    intro s new t newer same one two
    obtain ⟨a, old, step⟩ := settings s new
    obtain ⟨b, older, steps⟩ := settings t newer
    rw [step.shape, steps.shape] at same ⊢
    exact ex.settings a old b older same (step.pending one) (steps.pending two)
  jobs := by
    intro j new k newer same one two
    obtain ⟨a, old, step⟩ := jobs j new
    obtain ⟨b, older, steps⟩ := jobs k newer
    rw [step.shape, steps.shape] at same ⊢
    exact ex.jobs a old b older same (step.pending one) (steps.pending two)
  jobSettings := by
    intro j new s newer same one
    obtain ⟨a, old, step⟩ := jobs j new
    obtain ⟨b, older, steps⟩ := settings s newer
    by_contra two
    have clear := ex.jobSettings a old b older (by rw [step.shape, steps.shape] at same; exact same)
      (step.pending one)
    rw [steps.pending (by simpa using two)] at clear
    cases clear
  jobTasks := by
    intro j new t listed same one
    obtain ⟨a, old, step⟩ := jobs j new
    exact ex.jobTasks a old t listed (by rw [step.shape] at same; exact same) (step.pending one)
  settingsTasks := by
    intro s new t listed same busy
    obtain ⟨a, old, step⟩ := settings s new
    cases step with
    | moves h =>
      exact ex.settingsTasks a old t listed (by rw [h.row] at same; exact same)
        (h.status.held busy)
    | claimed held queued open_ tasks => exact taskHeld_false.mp tasks t listed same.symm
  tasks := ex.tasks

theorem Exclusive.enqueue {f : Fleet} (ex : Exclusive db) (queued : Enqueue locked db f) :
    Exclusive { db with fleet := f, fresh := db.fresh + 1 } := by
  cases queued with
  | @queueSettings key node draw intent removed row open_ clear pending taken =>
    have idle := settingsPending_false.mp pending
    have free := jobPending_false.mp clear
    refine ⟨?_, ex.jobs, ?_, ex.jobTasks, ?_, ex.tasks⟩
    · intro s one t two same busy busyToo
      rcases List.mem_append.mp one with old | new <;> rcases List.mem_append.mp two with olds | news
      · exact ex.settings s old t olds same busy busyToo
      · rw [List.mem_singleton.mp news] at same
        rw [idle s old same] at busy
        cases busy
      · rw [List.mem_singleton.mp new] at same
        rw [idle t olds same.symm] at busyToo
        cases busyToo
      · rw [List.mem_singleton.mp new, List.mem_singleton.mp news]
    · intro j one s two same busy
      rcases List.mem_append.mp two with old | new
      · exact ex.jobSettings j one s old same busy
      · rw [List.mem_singleton.mp new] at same
        rw [free j one same] at busy
        cases busy
    · intro s one t two same busy
      rcases List.mem_append.mp one with old | new
      · exact ex.settingsTasks s old t two same busy
      · rw [List.mem_singleton.mp new] at busy
        cases busy
  | @replaceSettings c node draw intent removed held row blocked found open_ others taken =>
    have claimed : c.status.pending = true := by rw [blocked]; rfl
    -- Every row of the node is closed before the new one joins.
    have closed : ∀ t ∈ db.fleet.settingsTasks.map fun t =>
        if t.id = c.id then { t with status := .superseded } else t,
        ∃ s ∈ db.fleet.settingsTasks, t = { s with status := t.status } ∧
          (t.status.pending = true → s.status = t.status ∧ s.node ≠ c.node) := by
      intro t listed
      obtain ⟨s, old, rfl⟩ := List.mem_map.mp listed
      refine ⟨s, old, ?_⟩
      split
      · exact ⟨rfl, fun busy => by cases busy⟩
      · next other => exact ⟨rfl, fun busy => ⟨rfl, fun same => other (others s old same busy)⟩⟩
    refine ⟨?_, ex.jobs, ?_, ex.jobTasks, ?_, ex.tasks⟩
    · intro s one t two same busy busyToo
      rcases List.mem_append.mp one with old | new <;> rcases List.mem_append.mp two with olds | news
      · obtain ⟨a, la, sa, pa⟩ := closed s old
        obtain ⟨b, lb, sb, pb⟩ := closed t olds
        rw [sa, sb] at same ⊢
        exact ex.settings a la b lb same (by rw [(pa busy).1]; exact busy)
          (by rw [(pb busyToo).1]; exact busyToo)
      · obtain ⟨a, la, sa, pa⟩ := closed s old
        rw [List.mem_singleton.mp news, sa] at same
        exact absurd same (pa busy).2
      · obtain ⟨b, lb, sb, pb⟩ := closed t olds
        rw [List.mem_singleton.mp new, sb] at same
        exact absurd same.symm (pb busyToo).2
      · rw [List.mem_singleton.mp new, List.mem_singleton.mp news]
    · intro j one s two same busy
      rcases List.mem_append.mp two with old | new
      · obtain ⟨a, la, sa, pa⟩ := closed s old
        by_contra pending
        have is : s.status.pending = true := by simpa using pending
        have clear := ex.jobSettings j one a la (by rw [sa] at same; exact same) busy
        rw [(pa is).1, is] at clear
        cases clear
      · rw [List.mem_singleton.mp new] at same
        have clear := ex.jobSettings j one c row same busy
        rw [claimed] at clear
        cases clear
    · intro s one t two same busy
      rcases List.mem_append.mp one with old | new
      · obtain ⟨a, la, sa, pa⟩ := closed s old
        exact ex.settingsTasks a la t two (by rw [sa] at same; exact same)
          (by rw [(pa (Status.pending_of_held busy)).1]; exact busy)
      · rw [List.mem_singleton.mp new] at busy
        cases busy
  | @queueJob key node action draw intent row open_ clear pending tasks clean taken =>
    have idle := settingsPending_false.mp pending
    have free := jobPending_false.mp clear
    have quiet := taskPending_false.mp tasks
    refine ⟨ex.settings, ?_, ?_, ?_, ex.settingsTasks, ex.tasks⟩
    · intro j one k two same busy busyToo
      rcases List.mem_append.mp one with old | new <;> rcases List.mem_append.mp two with olds | news
      · exact ex.jobs j old k olds same busy busyToo
      · rw [List.mem_singleton.mp news] at same
        rw [free j old same] at busy
        cases busy
      · rw [List.mem_singleton.mp new] at same
        rw [free k olds same.symm] at busyToo
        cases busyToo
      · rw [List.mem_singleton.mp new, List.mem_singleton.mp news]
    · intro j one s two same busy
      rcases List.mem_append.mp one with old | new
      · exact ex.jobSettings j old s two same busy
      · rw [List.mem_singleton.mp new] at same
        exact idle s two same.symm
    · intro j one t two same busy
      rcases List.mem_append.mp one with old | new
      · exact ex.jobTasks j old t two same busy
      · rw [List.mem_singleton.mp new] at same
        by_contra held
        have clear := quiet t two same.symm
        rw [Status.pending_of_held (by simpa using held)] at clear
        cases clear

theorem Exclusive.claim {operations : List Operation} {c : Task} (ex : Exclusive db)
    (numbered : Numbered db) (row : c ∈ db.outbox.tasks)
    (free : IntentExecutor.claimable db c = true) :
    Exclusive { db with outbox := ⟨operations, db.outbox.tasks.map fun u =>
      if IntentExecutor.byId c.row.id u then { u with status := .running } else u⟩ } := by
  simp only [IntentExecutor.claimable, Bool.and_eq_true, Bool.not_eq_true'] at free
  obtain ⟨⟨⟨⟨_, settings⟩, jobs⟩, tasks⟩, _⟩ := free
  have idle : ∀ s ∈ db.fleet.settingsTasks, s.node = c.row.node → s.status.held = false := by
    intro s listed same
    have none_ := List.any_eq_false.mp settings s listed
    simp only [same, Bool.and_eq_true, decide_eq_true_eq, Bool.or_eq_true, not_and, not_or] at none_
    exact Bool.eq_false_iff.mpr (none_ trivial).1
  have quiet := taskHeld_false.mp tasks
  have clear := jobPending_false.mp jobs
  -- A task that is held afterwards was held before, or is the claimed one.
  have from_ : ∀ u ∈ db.outbox.tasks.map fun u =>
      if IntentExecutor.byId c.row.id u then { u with status := .running } else u,
      u.status.held = true → (∃ t ∈ db.outbox.tasks, t = u ∧ t.row.id ≠ c.row.id) ∨
        u.row = c.row := by
    intro u listed held
    obtain ⟨t, old, rfl⟩ := List.mem_map.mp listed
    by_cases same : t.row.id = c.row.id
    · have itself : t = c := numbered.tasks.unique old row same
      refine .inr ?_
      rw [itself]
      split <;> rfl
    · refine .inl ⟨t, old, ?_, same⟩
      simp [IntentExecutor.byId, same]
  refine ⟨ex.settings, ex.jobs, ex.jobSettings, ?_, ?_, ?_⟩
  · intro j one u two same busy
    by_contra held
    rcases from_ u two (by simpa using held) with ⟨t, old, rfl, _⟩ | itself
    · exact held (ex.jobTasks j one t old same busy)
    · rw [clear j one (by rw [same, itself])] at busy
      cases busy
  · intro s one u two same busy
    by_contra held
    rcases from_ u two (by simpa using held) with ⟨t, old, rfl, _⟩ | itself
    · exact held (ex.settingsTasks s one t old same busy)
    · rw [idle s one (by rw [same, itself])] at busy
      cases busy
  · intro u one v two same busy busyToo
    rcases from_ u one busy with ⟨t, old, rfl, _⟩ | itself <;>
      rcases from_ v two busyToo with ⟨w, olds, rfl, _⟩ | itselfs
    · exact ex.tasks t old w olds same busy busyToo
    · rw [quiet t old (by rw [same, itselfs])] at busy
      cases busy
    · rw [quiet w olds (by rw [← same, itself])] at busyToo
      cases busyToo
    · rw [itself, itselfs]

theorem Exclusive.step (ex : Exclusive db) (numbered : Numbered db)
    (change : Change locked allow db es next) : Exclusive next := by
  cases change with
  | access grows => exact ⟨ex.settings, ex.jobs, ex.jobSettings, ex.jobTasks, ex.settingsTasks,
      ex.tasks⟩
  | maintain maintenance => exact ⟨ex.settings, ex.jobs, ex.jobSettings, ex.jobTasks,
      ex.settingsTasks, ex.tasks⟩
  | record now actor profile previous scope behind covers =>
    refine ex.of_tasks (OperationRepository.record_frame db now actor profile previous scope).1 ?_
    intro u listed held
    rw [OperationRepository.record_tasks] at listed
    rcases List.mem_append.mp listed with old | new
    · exact ⟨u, old, rfl, held⟩
    · rw [created_awaiting new] at held
      cases held
  | tasks f moves =>
    refine ex.of_tasks rfl ?_
    intro u listed held
    obtain ⟨t, old, rfl⟩ := List.mem_map.mp listed
    exact ⟨t, old, (moves t old).row.symm, (moves t old).status.held held⟩
  | claim held row free current => exact ex.claim numbered row free
  | enqueue queued => exact ex.enqueue queued
  | fleet change =>
    obtain ⟨g, settings, moved⟩ := change.settings_map numbered
    obtain ⟨h, jobs, movedToo⟩ := change.job_map numbered
    refine @Exclusive.of_fleet locked db _ ex ?_ ?_
    · intro t listed
      rw [settings] at listed
      obtain ⟨s, old, rfl⟩ := List.mem_map.mp listed
      exact ⟨s, old, moved s old⟩
    · intro k listed
      rw [jobs] at listed
      obtain ⟨j, old, rfl⟩ := List.mem_map.mp listed
      exact ⟨j, old, movedToo j old⟩

end Kept
end Controller
end NodePlane
