import NodePlane.Controller.Change
import NodePlane.Controller.Recording

/-! Identities are drawn once, and what becomes of a row over one change. -/
namespace NodePlane
namespace Controller
open Library

/-! Identities. -/

/-- Identities that were all drawn, each once. -/
structure Drawn (ids : List Uuid) (bound : Uuid) : Prop where
  nodup : ids.Nodup
  below : ∀ i ∈ ids, i < bound

namespace Drawn
variable {ids more : List Uuid} {bound next : Uuid}

theorem mono (h : Drawn ids bound) (later : bound ≤ next) : Drawn ids next :=
  ⟨h.nodup, fun i listed => Nat.lt_of_lt_of_le (h.below i listed) later⟩

theorem append (h : Drawn ids bound) (new : Drawn more next)
    (above : ∀ i ∈ more, bound ≤ i) (later : bound ≤ next) : Drawn (ids ++ more) next where
  nodup := List.nodup_append.mpr ⟨h.nodup, new.nodup, fun i old j fresh same =>
    absurd (h.below i old) (Nat.not_lt.mpr (same ▸ above j fresh))⟩
  below := fun i listed => by
    rcases List.mem_append.mp listed with old | fresh
    · exact Nat.lt_of_lt_of_le (h.below i old) later
    · exact new.below i fresh

theorem snoc (h : Drawn ids bound) : Drawn (ids ++ [bound]) (bound + 1) :=
  h.append ⟨List.nodup_singleton _, by simp⟩ (by simp) (Nat.le_succ _)

/-- A row is the only one under its identity. -/
theorem unique {ρ : Type} {rows : List ρ} {key : ρ → Uuid} (h : Drawn (rows.map key) bound)
    {r q : ρ} (first : r ∈ rows) (second : q ∈ rows) (same : key r = key q) : r = q :=
  List.inj_on_of_nodup_map h.nodup first second same

end Drawn

theorem map_keys {ρ κ : Type} {rows : List ρ} {key : ρ → κ} {f : ρ → ρ}
    (same : ∀ r ∈ rows, key (f r) = key r) : (rows.map f).map key = rows.map key := by
  rw [List.map_map]
  exact List.map_congr_left same

structure Numbered (db : Db) : Prop where
  tasks : Drawn (db.outbox.tasks.map fun t => t.row.id) db.fresh
  settings : Drawn (db.fleet.settingsTasks.map SettingsTask.id) db.fresh
  jobs : Drawn (db.fleet.jobs.map Job.id) db.fresh
  profiles : ∀ id p, db.access.profiles.lookup id = some p → id < db.fresh
  devices : ∀ id d, db.access.devices.lookup id = some d → id < db.fresh
  slots : ∀ slot r, db.access.retiredPeers.lookup slot = some r →
    slot < db.fresh ∧ db.access.devices.lookup slot = none

section Kept
variable {locked : Bool} {allow : Fleet → Job → Prop} {db next : Db} {es : List Event}

theorem FleetChange.settings_ids {f : Fleet} (change : FleetChange locked allow db es f) :
    f.settingsTasks.map SettingsTask.id = db.fleet.settingsTasks.map SettingsTask.id := by
  cases change with
  | settings f moves => exact map_keys fun s listed => by rw [(moves s listed).row]
  | claimSettings held row queued _ _ =>
    exact map_keys fun s _ => by split <;> rfl
  | writeSettings held row sent valid =>
    exact map_keys fun s _ => by split <;> rfl
  | _ => rfl

theorem FleetChange.job_ids {f : Fleet} (change : FleetChange locked allow db es f) :
    f.jobs.map Job.id = db.fleet.jobs.map Job.id := by
  cases change with
  | jobs f moves => exact map_keys fun j listed => by rw [(moves j listed).row]
  | claimJob held row queued => exact map_keys fun s _ => by split <;> rfl
  | finishJob installations held row sent allowed action valid =>
    exact map_keys fun s _ => by split <;> rfl
  | _ => rfl

theorem Enqueue.ids {f : Fleet} (queued : Enqueue locked db f) (numbered : Numbered db) :
    Drawn (f.settingsTasks.map SettingsTask.id) (db.fresh + 1) ∧
      Drawn (f.jobs.map Job.id) (db.fresh + 1) := by
  have settings := numbered.settings
  have jobs := numbered.jobs
  cases queued with
  | queueSettings removed row open_ clear pending taken =>
    exact ⟨by simpa using settings.snoc, jobs.mono (Nat.le_succ _)⟩
  | @replaceSettings s node draw intent removed held row blocked found open_ others taken =>
    have same : (db.fleet.settingsTasks.map fun t =>
        if t.id = s.id then { t with status := .superseded } else t).map SettingsTask.id =
          db.fleet.settingsTasks.map SettingsTask.id :=
      map_keys fun t _ => by split <;> rfl
    refine ⟨?_, jobs.mono (Nat.le_succ _)⟩
    rw [List.map_append, same]
    exact settings.snoc
  | queueJob row open_ clear pending tasks clean taken =>
    exact ⟨settings.mono (Nat.le_succ _), by simpa using jobs.snoc⟩

theorem Numbered.step (numbered : Numbered db) (change : Change locked allow db es next) :
    Numbered next := by
  cases change with
  | @access a operations fresh grows =>
    have drawn : ∀ id d, a.devices.lookup id = some d → id < fresh := by
      intro id d row
      rcases grows.newDevices id d row with old | new
      · obtain ⟨d, old⟩ := Option.isSome_iff_exists.mp old
        exact Nat.lt_of_lt_of_le (numbered.devices id d old) grows.later
      · exact new.2
    refine ⟨numbered.tasks.mono grows.later, numbered.settings.mono grows.later,
      numbered.jobs.mono grows.later, ?_, drawn, ?_⟩
    · intro id p row
      rcases grows.newProfiles id p row with old | new
      · obtain ⟨p, old⟩ := Option.isSome_iff_exists.mp old
        exact Nat.lt_of_lt_of_le (numbered.profiles id p old) grows.later
      · exact new
    · intro slot r row
      rcases grows.newSlots slot r row with old | new
      · obtain ⟨low, unused⟩ := numbered.slots slot r old
        refine ⟨Nat.lt_of_lt_of_le low grows.later, ?_⟩
        cases known : a.devices.lookup slot with
        | none => rfl
        | some d =>
          rcases grows.newDevices slot d known with found | new
          · simp [unused] at found
          · exact absurd low (Nat.not_lt.mpr new.1)
      · exact new.2
  | maintain maintenance => exact ⟨numbered.tasks, numbered.settings, numbered.jobs,
      numbered.profiles, numbered.devices, numbered.slots⟩
  | record now actor profile previous scope behind covers =>
    obtain ⟨fleet, _, devices, profiles, _, _, peers⟩ :=
      OperationRepository.record_frame db now actor profile previous scope
    have later := OperationRepository.record_later db now actor profile previous scope
    refine ⟨?_, ?_, ?_, ?_, ?_, ?_⟩
    · rw [OperationRepository.record_tasks, List.map_append]
      refine numbered.tasks.append
        ⟨OperationRepository.created_ids_nodup db now actor profile previous scope, ?_⟩ ?_ later
      · intro i listed
        obtain ⟨t, new, rfl⟩ := List.mem_map.mp listed
        exact (OperationRepository.created_drawn new).2
      · intro i listed
        obtain ⟨t, new, rfl⟩ := List.mem_map.mp listed
        exact (OperationRepository.created_drawn new).1
    · rw [fleet]
      exact numbered.settings.mono later
    · rw [fleet]
      exact numbered.jobs.mono later
    · rw [profiles]
      exact fun id p row => Nat.lt_of_lt_of_le (numbered.profiles id p row) later
    · rw [devices]
      exact fun id d row => Nat.lt_of_lt_of_le (numbered.devices id d row) later
    · rw [peers, devices]
      exact fun slot r row => ⟨Nat.lt_of_lt_of_le (numbered.slots slot r row).1 later,
        (numbered.slots slot r row).2⟩
  | tasks f moves =>
    refine ⟨?_, numbered.settings, numbered.jobs, numbered.profiles, numbered.devices,
      numbered.slots⟩
    rw [map_keys fun t listed => by rw [(moves t listed).row]]
    exact numbered.tasks
  | claim held row free current =>
    refine ⟨?_, numbered.settings, numbered.jobs, numbered.profiles, numbered.devices,
      numbered.slots⟩
    rw [map_keys fun t _ => by split <;> rfl]
    exact numbered.tasks
  | enqueue queued =>
    obtain ⟨settings, jobs⟩ := queued.ids numbered
    exact ⟨numbered.tasks.mono (Nat.le_succ _), settings, jobs,
      fun id p row => Nat.lt_succ_of_lt (numbered.profiles id p row),
      fun id d row => Nat.lt_succ_of_lt (numbered.devices id d row),
      fun slot r row => ⟨Nat.lt_succ_of_lt (numbered.slots slot r row).1,
        (numbered.slots slot r row).2⟩⟩
  | fleet change =>
    refine ⟨numbered.tasks, ?_, ?_, numbered.profiles, numbered.devices, numbered.slots⟩
    · rw [change.settings_ids]
      exact numbered.settings
    · rw [change.job_ids]
      exact numbered.jobs

/-! Rows over one change: where a row comes from, and what becomes of it. -/

inductive TaskStep (locked : Bool) (db : Db) (t : Task) : Task → Prop
  | moves {u : Task} (h : t.Moves locked u) : TaskStep locked db t u
  | claimed (held : locked = true) (free : IntentExecutor.claimable db t = true)
      (current : IntentExecutor.obsolete db t.row = false) :
    TaskStep locked db t { t with status := .running }

theorem Task.Moves.refl (locked : Bool) (t : Task) : t.Moves locked t := ⟨rfl, .inl rfl⟩

theorem TaskStep.row {t u : Task} (h : TaskStep locked db t u) : u.row = t.row := by
  cases h with
  | moves h => exact h.row
  | claimed => rfl

/-- A new task is one that a recording creates. -/
def Recorded (db next : Db) (u : Task) : Prop :=
  ∃ now actor profile previous scope,
    next = OperationRepository.record db now actor profile previous scope ∧
    (∀ t ∈ db.outbox.tasks, ∀ p, t.row.profile = profile →
      db.access.profiles.lookup profile = some p → t.row.revision < p.desiredRevision) ∧
    u ∈ OperationRepository.created db now actor profile previous scope

theorem Change.task_from (numbered : Numbered db) (change : Change locked allow db es next)
    {u : Task} (listed : u ∈ next.outbox.tasks) :
    (∃ t ∈ db.outbox.tasks, TaskStep locked db t u) ∨ Recorded db next u := by
  cases change with
  | record now actor profile previous scope behind covers =>
    rw [OperationRepository.record_tasks] at listed
    rcases List.mem_append.mp listed with old | new
    · exact .inl ⟨u, old, .moves (Task.Moves.refl _ u)⟩
    · exact .inr ⟨now, actor, profile, previous, scope, rfl, behind, new⟩
  | tasks f moves =>
    obtain ⟨t, old, rfl⟩ := List.mem_map.mp listed
    exact .inl ⟨t, old, .moves (moves t old)⟩
  | @claim operations t held row free current =>
    obtain ⟨u, old, rfl⟩ := List.mem_map.mp listed
    refine .inl ⟨u, old, ?_⟩
    split
    · next same =>
      have itself : u = t := numbered.tasks.unique old row (by
        simpa [IntentExecutor.byId] using same)
      subst itself
      exact .claimed held free current
    · exact .moves (Task.Moves.refl _ u)
  | _ => exact .inl ⟨u, listed, .moves (Task.Moves.refl _ u)⟩

theorem Change.task_to (numbered : Numbered db) (change : Change locked allow db es next)
    {t : Task} (listed : t ∈ db.outbox.tasks) :
    ∃ u ∈ next.outbox.tasks, TaskStep locked db t u := by
  cases change with
  | record now actor profile previous scope behind covers =>
    refine ⟨t, ?_, .moves (Task.Moves.refl _ t)⟩
    rw [OperationRepository.record_tasks]
    exact List.mem_append_left _ listed
  | tasks f moves => exact ⟨f t, List.mem_map_of_mem listed, .moves (moves t listed)⟩
  | @claim operations c held row free current =>
    refine ⟨_, List.mem_map_of_mem listed, ?_⟩
    split
    · next same =>
      have itself : t = c := numbered.tasks.unique listed row (by
        simpa [IntentExecutor.byId] using same)
      subst itself
      exact .claimed held free current
    · exact .moves (Task.Moves.refl _ t)
  | _ => exact ⟨t, listed, .moves (Task.Moves.refl _ t)⟩

inductive SettingsStep (locked : Bool) (db : Db) (s : SettingsTask) : SettingsTask → Prop
  | moves {t : SettingsTask} (h : s.Moves locked t) : SettingsStep locked db s t
  | claimed (held : locked = true) (queued : s.status = .awaitingExecutor)
      (open_ : db.fleet.draining s.node = false) (tasks : taskHeld db s.node = false) :
    SettingsStep locked db s { s with status := .running }

theorem SettingsTask.Moves.refl (locked : Bool) (s : SettingsTask) : s.Moves locked s :=
  ⟨rfl, .inl rfl⟩

theorem SettingsStep.shape {s t : SettingsTask} (h : SettingsStep locked db s t) :
    t = { s with status := t.status } := by
  cases h with
  | moves h => exact h.row
  | claimed => rfl

theorem SettingsStep.pending {s t : SettingsTask} (h : SettingsStep locked db s t)
    (now : t.status.pending = true) : s.status.pending = true := by
  cases h with
  | moves h => exact h.status.pending now
  | claimed held queued _ _ => rw [queued]; rfl

inductive JobStep (locked : Bool) (j : Job) : Job → Prop
  | moves {k : Job} (h : j.Moves locked k) : JobStep locked j k
  | claimed (held : locked = true) (queued : j.status = .awaitingExecutor) :
    JobStep locked j { j with status := .running }

theorem Job.Moves.refl (locked : Bool) (j : Job) : j.Moves locked j := ⟨rfl, .inl rfl⟩

theorem JobStep.shape {j k : Job} (h : JobStep locked j k) :
    k = { j with status := k.status } := by
  cases h with
  | moves h => exact h.row
  | claimed => rfl

theorem JobStep.pending {j k : Job} (h : JobStep locked j k)
    (now : k.status.pending = true) : j.status.pending = true := by
  cases h with
  | moves h => exact h.status.pending now
  | claimed held queued => rw [queued]; rfl

/-- The queue rows of a fleet change are the old ones, moved on one by one. -/
theorem FleetChange.settings_map {f : Fleet} (numbered : Numbered db)
    (change : FleetChange locked allow db es f) :
    ∃ g, f.settingsTasks = db.fleet.settingsTasks.map g ∧
      ∀ s ∈ db.fleet.settingsTasks, SettingsStep locked db s (g s) := by
  have same : ∃ g : SettingsTask → SettingsTask,
      db.fleet.settingsTasks = db.fleet.settingsTasks.map g ∧
        ∀ s ∈ db.fleet.settingsTasks, SettingsStep locked db s (g s) :=
    ⟨id, by simp, fun s _ => .moves (SettingsTask.Moves.refl _ s)⟩
  cases change with
  | settings f moves => exact ⟨f, rfl, fun s listed => .moves (moves s listed)⟩
  | @claimSettings c held row queued open_ tasks =>
    refine ⟨_, rfl, fun s listed => ?_⟩
    split
    · next match_ =>
      have itself : s = c := numbered.settings.unique listed row match_
      subst itself
      exact .claimed held queued open_ tasks
    · exact .moves (SettingsTask.Moves.refl _ s)
  | @writeSettings c r settings held row sent valid =>
    refine ⟨_, rfl, fun s listed => ?_⟩
    split
    · next match_ =>
      have itself : s = c := numbered.settings.unique listed row match_
      subst itself
      exact .moves ⟨rfl, .inr (.inr ⟨held, sent, by simp, by simp⟩)⟩
    · exact .moves (SettingsTask.Moves.refl _ s)
  | _ => exact same

theorem FleetChange.job_map {f : Fleet} (numbered : Numbered db)
    (change : FleetChange locked allow db es f) :
    ∃ g, f.jobs = db.fleet.jobs.map g ∧ ∀ j ∈ db.fleet.jobs, JobStep locked j (g j) := by
  have same : ∃ g : Job → Job, db.fleet.jobs = db.fleet.jobs.map g ∧
      ∀ j ∈ db.fleet.jobs, JobStep locked j (g j) :=
    ⟨id, by simp, fun j _ => .moves (Job.Moves.refl _ j)⟩
  cases change with
  | jobs f moves => exact ⟨f, rfl, fun j listed => .moves (moves j listed)⟩
  | @claimJob c held row queued =>
    refine ⟨_, rfl, fun j listed => ?_⟩
    split
    · next match_ =>
      have itself : j = c := numbered.jobs.unique listed row (by simpa using match_)
      subst itself
      exact .claimed held queued
    · exact .moves (Job.Moves.refl _ j)
  | @finishJob c r settings installations held row sent allowed action valid =>
    refine ⟨_, rfl, fun j listed => ?_⟩
    split
    · next match_ =>
      have itself : j = c := numbered.jobs.unique listed row (by simpa using match_)
      subst itself
      exact .moves ⟨rfl, .inr (.inr ⟨held, sent, by simp, by simp⟩)⟩
    · exact .moves (Job.Moves.refl _ j)
  | _ => exact same

theorem settingsPending_false {f : Fleet} {node : NodeKey} :
    f.settingsPending node = false ↔
      ∀ s ∈ f.settingsTasks, s.node = node → s.status.pending = false := by
  simp [Fleet.settingsPending]

theorem settingsHeld_false {f : Fleet} {node : NodeKey} :
    f.settingsHeld node = false ↔
      ∀ s ∈ f.settingsTasks, s.node = node → s.status.held = false := by
  simp [Fleet.settingsHeld]

theorem jobPending_false {f : Fleet} {node : NodeKey} :
    f.jobPending node = false ↔ ∀ j ∈ f.jobs, j.node = node → j.status.pending = false := by
  simp [Fleet.jobPending]

theorem taskHeld_false {db : Db} {node : NodeKey} :
    taskHeld db node = false ↔
      ∀ t ∈ db.outbox.tasks, t.row.node = node → t.status.held = false := by
  simp [taskHeld]

theorem taskPending_false {db : Db} {node : NodeKey} :
    taskPending db node = false ↔
      ∀ t ∈ db.outbox.tasks, t.row.node = node → t.status.pending = false := by
  simp [taskPending]

end Kept
end Controller
end NodePlane
