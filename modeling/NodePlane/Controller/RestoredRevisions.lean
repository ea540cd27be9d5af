import NodePlane.Library.Generations
import NodePlane.Controller.Backups
import NodePlane.Controller.Completeness

/-! A restore puts nodes and profiles back above the revisions of their present rows;
what was sent for an earlier row, and retired keys, it does not know. -/
namespace NodePlane
namespace Controller
namespace RestoredRevisions
open Library OperationRepository

/-! Rows of the node queues lie at or below the revision of their node. -/

section Changes
variable {locked : Bool} {allow : Fleet → Job → Prop} {db next : Db} {es : List Event}

/-- A node keeps its row, at no lower revision, or it drained and its key is retired. -/
def Stays (drains : List NodeKey) (key : NodeKey) (m : Node) (f : Fleet) : Prop :=
  (∃ n, f.nodes.lookup key = some n ∧ m.desiredRevision ≤ n.desiredRevision) ∨
    (key ∈ drains ∧ f.nodes.lookup key = none ∧ f.retired key = true)

theorem Stays.at_key {nodes : Table NodeKey Node} {key k : NodeKey} {g : Node → Node} {m : Node}
    {f : Fleet} {drains : List NodeKey}
    (shape : f.nodes.lookup k = if k = key then (nodes.lookup key).map g else nodes.lookup k)
    (rises : ∀ n, nodes.lookup key = some n → n.desiredRevision ≤ (g n).desiredRevision)
    (row : nodes.lookup k = some m) : Stays drains k m f := by
  left
  rw [shape]
  split
  · next same =>
    subst same
    exact ⟨g m, by rw [row]; rfl, rises m row⟩
  · exact ⟨m, row, Nat.le_refl _⟩

theorem applied_desired (s : SettingsTask) (draining : Bool) (settings : Settings)
    (awgPort : Option ℕ) (n : Node) :
    (NodeSettingsExecutor.appliedNode s draining settings awgPort n).desiredRevision =
      n.desiredRevision := by
  unfold NodeSettingsExecutor.appliedNode
  dsimp only
  split <;> exact NodeSettings.ported_desired

theorem completed_desired (j : Job) (settings : Settings) (awgPort : Option ℕ) (n : Node) :
    (NodeOperations.completedNode j settings awgPort n).desiredRevision = n.desiredRevision := by
  unfold NodeOperations.completedNode
  dsimp only
  split
  · exact NodeSettings.ported_desired
  · split
    · exact NodeSettings.ported_desired
    · split <;> exact NodeSettings.ported_desired

theorem put_stays {f : Fleet} {drains : List NodeKey} {key k : NodeKey} {n m : Node}
    (shape : f.nodes = db.fleet.nodes.put k n)
    (rises : ∀ old, db.fleet.nodes.lookup k = some old → old.desiredRevision ≤ n.desiredRevision)
    (row : db.fleet.nodes.lookup key = some m) : Stays drains key m f := by
  left
  rw [shape, Table.lookup_put]
  split
  · next same =>
    subst same
    exact ⟨n, rfl, rises m row⟩
  · exact ⟨m, row, Nat.le_refl _⟩

theorem node_to {f : Fleet} (change : FleetChange locked allow db es f) {key : NodeKey} {m : Node}
    (row : db.fleet.nodes.lookup key = some m) : Stays db.fleet.drains key m f := by
  have same : ∀ g : Fleet, g.nodes = db.fleet.nodes → Stays db.fleet.drains key m g :=
    fun g nodes => .inl ⟨m, by rw [nodes]; exact row, Nat.le_refl _⟩
  cases change with
  | @writeSettings s r settings held member sent valid =>
    exact Stays.at_key (NodeSettingsExecutor.lookup_applied db.fleet s settings r.awgPort key)
      (fun n _ => Nat.le_of_eq (applied_desired ..).symm) row
  | @finishJob j r settings installations held member sent allowed action valid =>
    exact Stays.at_key (NodeOperations.lookup_completed db.fleet j settings r.awgPort key)
      (fun n _ => Nat.le_of_eq (completed_desired ..).symm) row
  | create transports settings draw unused unfenced =>
    exact put_stays rfl (fun old found => absurd (unused.symm.trans found) (by simp)) row
  | edit protocols transports settings draws found jobs valid =>
    refine put_stays rfl (fun old its => ?_) row
    rw [found] at its
    cases its
    exact Nat.le_succ _
  | policies scope value =>
    left
    simp only [VpnPolicies.change, VpnPolicies.markNodes, Table.lookup_mapRows, row]
    refine ⟨_, rfl, ?_⟩
    dsimp only
    split
    · exact Nat.le_succ _
    · exact Nat.le_refl _
  | repair =>
    left
    simp only [NodeOperations.repairRemovedRuntimeState, Table.lookup_mapRows, row]
    refine ⟨_, rfl, ?_⟩
    dsimp only
    split <;> exact Nat.le_refl _
  | disable closed =>
    exact Stays.at_key (Table.lookup_alter db.fleet.nodes closed key _)
      (fun n _ => Nat.le_refl _) row
  | @remove gone mode held known draining =>
    by_cases itself : key = gone
    · right
      subst itself
      refine ⟨draining_iff.mp draining,
        Option.eq_none_iff_forall_ne_some.mpr fun n found => ?_, ?_⟩
      · simpa using (Table.lookup_keep.mp found).2
      · simp [Fleet.retired, NodeLifecycle.remove]
    · exact .inl ⟨m, Table.lookup_keep.mpr ⟨row, by simpa using itself⟩, Nat.le_refl _⟩
  | advance raised revision =>
    refine Stays.at_key (Table.lookup_alter db.fleet.nodes raised key _) (fun n _ => ?_) row
    dsimp only
    split <;> omega
  | _ => exact same _ rfl

theorem enqueue_to {f : Fleet} (queued : Enqueue locked db f) {key : NodeKey} {m : Node}
    (row : db.fleet.nodes.lookup key = some m) : Stays db.fleet.drains key m f := by
  cases queued with
  | queueSettings => exact .inl ⟨m, row, Nat.le_refl _⟩
  | replaceSettings removed held member blocked found open_ others taken =>
    refine put_stays rfl (fun old its => ?_) row
    rw [found] at its
    cases its
    exact Nat.le_succ_of_le (Nat.le_max_left ..)
  | @queueJob k node action draw intent found open_ jobs settings tasks clean taken =>
    by_cases invalidates : action.invalidate = true
    · refine put_stays (if_pos invalidates) (fun old its => ?_) row
      rw [found] at its
      cases its
      rw [if_pos invalidates]
      exact Nat.le_succ _
    · exact .inl ⟨m, by rw [if_neg invalidates]; exact row, Nat.le_refl _⟩

theorem change_to (change : Change locked allow db es next) {key : NodeKey} {m : Node}
    (row : db.fleet.nodes.lookup key = some m) : Stays db.fleet.drains key m next.fleet := by
  cases change with
  | record now actor profile previous scope behind covers =>
    rw [record_fleet]
    exact .inl ⟨m, row, Nat.le_refl _⟩
  | enqueue queued => exact enqueue_to queued row
  | fleet change => exact node_to change row
  | _ => exact .inl ⟨m, row, Nat.le_refl _⟩

/-- A retired key stays retired. -/
theorem retired_kept (change : Change locked allow db es next) {key : NodeKey}
    (retired : db.fleet.retired key = true) : next.fleet.retired key = true := by
  cases change with
  | record now actor profile previous scope behind covers =>
    rw [record_fleet]
    exact retired
  | enqueue queued => cases queued <;> exact retired
  | fleet change =>
    cases change with
    | @remove gone mode held known draining =>
      unfold Fleet.retired NodeLifecycle.remove
      rw [Table.lookup_put]
      split
      · rfl
      · exact retired
    | _ => exact retired
  | _ => exact retired

theorem steps_retired (sound : Sound db) (ran : Steps (Change locked allow) db es next)
    {key : NodeKey} (retired : db.fleet.retired key = true) :
    next.fleet.nodes.lookup key = none ∧ next.fleet.retired key = true := by
  induction ran with
  | refl => exact ⟨(sound.fenced.retired key retired).1, retired⟩
  | head step _ ih => exact ih (sound.step step) (retired_kept step retired)

theorem steps_to (sound : Sound db) (ran : Steps (Change locked allow) db es next)
    {key : NodeKey} {m : Node} (row : db.fleet.nodes.lookup key = some m) :
    (∃ n, next.fleet.nodes.lookup key = some n ∧ m.desiredRevision ≤ n.desiredRevision) ∨
      (next.fleet.nodes.lookup key = none ∧ next.fleet.retired key = true) := by
  induction ran generalizing m with
  | refl => exact .inl ⟨m, row, Nat.le_refl _⟩
  | head step rest ih =>
    rcases change_to step row with ⟨n, found, rises⟩ | ⟨_, _, retired⟩
    · rcases ih (sound.step step) found with ⟨k, last, le⟩ | done
      · exact .inl ⟨k, last, Nat.le_trans rises le⟩
      · exact .inr done
    · exact .inr (steps_retired (sound.step step) rest retired)

/-! Queue rows. -/

/-- A row of a node queue at `revision`: its node is there at or above it, or retired
with the row ended. -/
def Placed (db : Db) (node : NodeKey) (revision : ℕ) (status : Status) : Prop :=
  (∃ n, db.fleet.nodes.lookup node = some n ∧ revision ≤ n.desiredRevision) ∨
    (db.fleet.retired node = true ∧ status.pending = false)

structure Sequenced (db : Db) : Prop where
  idle : ∀ s ∈ db.fleet.settingsTasks, s.node ∈ db.fleet.drains → s.status.pending = false
  settings : ∀ s ∈ db.fleet.settingsTasks, Placed db s.node s.revision s.status
  jobs : ∀ j ∈ db.fleet.jobs, Placed db j.node j.revision j.status

/-- A row queued at the revision of its node, which has no fence. -/
def Queued (f : Fleet) (node : NodeKey) (revision : ℕ) : Prop :=
  node ∉ f.drains ∧ ∃ n, f.nodes.lookup node = some n ∧ revision = n.desiredRevision

theorem settings_from (numbered : Numbered db) (change : Change locked allow db es next)
    {t : SettingsTask} (listed : t ∈ next.fleet.settingsTasks) :
    (∃ s ∈ db.fleet.settingsTasks, SettingsStep locked db s t) ∨
      Queued next.fleet t.node t.revision := by
  have old : ∀ {s}, s ∈ db.fleet.settingsTasks →
      (∃ s' ∈ db.fleet.settingsTasks, SettingsStep locked db s' s) ∨
        Queued next.fleet s.node s.revision :=
    fun {s} was => .inl ⟨s, was, .moves (SettingsTask.Moves.refl _ s)⟩
  cases change with
  | record now actor profile previous scope behind covers =>
    rw [record_fleet] at listed
    exact old listed
  | enqueue queued =>
    cases queued with
    | queueSettings removed row open_ =>
      rcases List.mem_append.mp listed with was | new
      · exact old was
      · cases List.mem_singleton.mp new
        exact .inr ⟨draining_false.mp open_, _, row, rfl⟩
    | @replaceSettings c node draw intent removed held row blocked found open_ others taken =>
      rcases List.mem_append.mp listed with was | new
      · obtain ⟨s, member, rfl⟩ := List.mem_map.mp was
        refine .inl ⟨s, member, ?_⟩
        split
        · next match_ =>
          have itself : s = c := numbered.settings.unique member row match_
          subst itself
          exact .moves ⟨rfl, .inr (.inr ⟨held, by rw [blocked]; rfl, by simp, by simp⟩)⟩
        · exact .moves (SettingsTask.Moves.refl _ s)
      · cases List.mem_singleton.mp new
        exact .inr ⟨draining_false.mp open_, _, Table.lookup_put_self .., rfl⟩
    | queueJob => exact old listed
  | fleet change =>
    obtain ⟨g, shape, moved⟩ := change.settings_map numbered
    rw [shape] at listed
    obtain ⟨s, member, rfl⟩ := List.mem_map.mp listed
    exact .inl ⟨s, member, moved s member⟩
  | _ => exact old listed

theorem jobs_from (numbered : Numbered db) (change : Change locked allow db es next)
    {k : Job} (listed : k ∈ next.fleet.jobs) :
    (∃ j ∈ db.fleet.jobs, JobStep locked j k) ∨ Queued next.fleet k.node k.revision := by
  have old : k ∈ db.fleet.jobs →
      (∃ j ∈ db.fleet.jobs, JobStep locked j k) ∨ Queued next.fleet k.node k.revision :=
    fun was => .inl ⟨k, was, .moves (Job.Moves.refl _ k)⟩
  cases change with
  | record now actor profile previous scope behind covers =>
    rw [record_fleet] at listed
    exact old listed
  | enqueue queued =>
    cases queued with
    | queueSettings => exact old listed
    | replaceSettings => exact old listed
    | @queueJob key node action draw intent row open_ jobs settings tasks clean taken =>
      rcases List.mem_append.mp listed with was | new
      · exact old was
      · cases List.mem_singleton.mp new
        refine .inr ⟨draining_false.mp open_, ?_⟩
        by_cases invalidates : action.invalidate = true
        · simp only [if_pos invalidates]
          exact ⟨_, Table.lookup_put_self .., rfl⟩
        · simp only [if_neg invalidates]
          exact ⟨node, row, rfl⟩
  | fleet change =>
    obtain ⟨g, shape, moved⟩ := change.job_map numbered
    rw [shape] at listed
    obtain ⟨j, member, rfl⟩ := List.mem_map.mp listed
    exact .inl ⟨j, member, moved j member⟩
  | _ => exact old listed

/-- A drain or a removal closes a node whose rows have ended. -/
theorem drains_from (change : Change locked allow db es next) {key : NodeKey}
    (draining : key ∈ next.fleet.drains) :
    key ∈ db.fleet.drains ∨ db.fleet.settingsPending key = false := by
  cases change with
  | record now actor profile previous scope behind covers =>
    rw [record_fleet] at draining
    exact .inl draining
  | enqueue queued => cases queued <;> exact .inl draining
  | fleet change =>
    cases change with
    | @drain closed held row disabled jobs settings revoked =>
      rcases List.mem_cons.mp draining with rfl | old
      · exact .inr settings
      · exact .inl old
    | remove mode held known draining_ =>
      exact .inl (List.mem_of_mem_filter draining)
    | _ => exact .inl draining
  | _ => exact .inl draining

theorem Placed.step {node : NodeKey} {revision : ℕ} {old new : Status}
    (placed : Placed db node revision old) (change : Change locked allow db es next)
    (moves : new.pending = true → old.pending = true)
    (idle : node ∈ db.fleet.drains → old.pending = false) :
    Placed next node revision new := by
  have ended : old.pending = false → new.pending = false := by
    intro done
    by_contra now
    rw [moves (by simpa using now)] at done
    cases done
  rcases placed with ⟨m, row, le⟩ | ⟨retired, done⟩
  · rcases change_to change row with ⟨n, found, rises⟩ | ⟨draining, _, retired⟩
    · exact .inl ⟨n, found, Nat.le_trans le rises⟩
    · exact .inr ⟨retired, ended (idle draining)⟩
  · exact .inr ⟨retired_kept change retired, ended done⟩

theorem Queued.placed {node : NodeKey} {revision : ℕ} (queued : Queued next.fleet node revision)
    (status : Status) : Placed next node revision status := by
  obtain ⟨_, n, row, rfl⟩ := queued
  exact .inl ⟨n, row, Nat.le_refl _⟩

theorem Sequenced.step (sequenced : Sequenced db) (sound : Sound db)
    (change : Change locked allow db es next) : Sequenced next where
  idle := by
    intro t listed draining
    rcases settings_from sound.numbered change listed with ⟨s, old, step⟩ | ⟨undrained, _⟩
    · by_contra now
      have was := step.pending (by simpa using now)
      rw [step.shape] at draining
      rcases drains_from change draining with before | quiet
      · rw [sequenced.idle s old before] at was
        cases was
      · rw [settingsPending_false.mp quiet s old rfl] at was
        cases was
    · exact absurd draining undrained
  settings := by
    intro t listed
    rcases settings_from sound.numbered change listed with ⟨s, old, step⟩ | queued
    · have shape := step.shape
      rw [shape]
      exact (sequenced.settings s old).step change step.pending (sequenced.idle s old)
    · exact queued.placed _
  jobs := by
    intro k listed
    rcases jobs_from sound.numbered change listed with ⟨j, old, step⟩ | queued
    · have shape := step.shape
      rw [shape]
      exact (sequenced.jobs j old).step change step.pending (sound.fenced.jobs j old)
    · exact queued.placed _

theorem Sequenced.steps (sequenced : Sequenced db) (sound : Sound db)
    (ran : Steps (Change locked allow) db es next) : Sequenced next := by
  induction ran with
  | refl => exact sequenced
  | head step _ ih => exact ih (sequenced.step sound step) (sound.step step)

/-- Profiles are never removed by a change. -/
theorem profiles_to (ran : Steps (Change locked allow) db es next) {id : Uuid} {p : Profile}
    (row : db.access.profiles.lookup id = some p) :
    ∃ q, next.access.profiles.lookup id = some q ∧ p.desiredRevision ≤ q.desiredRevision := by
  induction ran generalizing p with
  | refl => exact ⟨p, row, Nat.le_refl _⟩
  | head step _ ih =>
    obtain ⟨q, found, rises⟩ := step.profiles_grow id p row
    obtain ⟨r, last, le⟩ := ih found
    exact ⟨r, last, Nat.le_trans rises le⟩

end Changes

/-! What was sent, and the rows it was sent for. -/

/-- A command to the node at a revision of its settings. -/
def sentNode (key : NodeKey) : BackupEvent → ℕ → Prop
  | .core (.applied t), r => t.node = key ∧ t.revision = r
  | .core (.acted j), r => j.node = key ∧ j.revision = r
  | _, _ => False

/-- A command for the profile at a revision of it. -/
def sentProfile (id : Uuid) : BackupEvent → ℕ → Prop
  | .core (.executed row), r => row.profile = id ∧ row.revision = r
  | _, _ => False

def nodeRevision (db : Db) (key : NodeKey) : Option ℕ :=
  (db.fleet.nodes.lookup key).map Node.desiredRevision

def profileRevision (db : Db) (id : Uuid) : Option ℕ :=
  (db.access.profiles.lookup id).map Profile.desiredRevision

theorem node_removed {db next : Db} {key : NodeKey} {m : Node}
    (row : db.fleet.nodes.lookup key = some m) (gone : next.fleet.nodes.lookup key = none) :
    .nodeRemoved key ∈ BackupSystem.changes db next := by
  unfold BackupSystem.changes
  refine List.mem_append_left _ (List.mem_append_left _ (List.mem_map.mpr ⟨(key, m), ?_, rfl⟩))
  rw [List.mem_filter]
  exact ⟨Table.mem_rows_iff.mpr row, by rw [gone]; rfl⟩

theorem profile_removed {db next : Db} {id : Uuid} {p : Profile}
    (row : db.access.profiles.lookup id = some p) (gone : next.access.profiles.lookup id = none) :
    .profileRemoved id ∈ BackupSystem.changes db next := by
  unfold BackupSystem.changes
  refine List.mem_append_left _ (List.mem_append_right _ (List.mem_map.mpr ⟨(id, p), ?_, rfl⟩))
  rw [List.mem_filter]
  exact ⟨Table.mem_rows_iff.mpr row, by rw [gone]; rfl⟩

/-- The tables' own events are no commands. -/
theorem changes_unsent {db next : Db} {e : BackupEvent}
    (listed : e ∈ BackupSystem.changes db next) :
    (∀ key r, ¬sentNode key e r) ∧ ∀ id r, ¬sentProfile id e r := by
  unfold BackupSystem.changes at listed
  rcases List.mem_append.mp listed with rows | retired
  · rcases List.mem_append.mp rows with nodes | profiles
    · obtain ⟨_, _, rfl⟩ := List.mem_map.mp nodes
      exact ⟨fun _ _ => id, fun _ _ => id⟩
    · obtain ⟨_, _, rfl⟩ := List.mem_map.mp profiles
      exact ⟨fun _ _ => id, fun _ _ => id⟩
  · obtain ⟨_, _, rfl⟩ := List.mem_map.mp retired
    exact ⟨fun _ _ => id, fun _ _ => id⟩

/-- The invariant of every run, whatever is restored. -/
structure Kept (past : List BackupEvent) (s : BackupSystem) : Prop where
  sound : Sound s.core.db
  holds : s.core.holder.Holds s.core.db
  sequenced : Sequenced s.core.db
  nodes : ∀ key, Leads (sentNode key) (· = .nodeRemoved key) past (nodeRevision s.core.db key)
  profiles : ∀ id, Leads (sentProfile id) (· = .profileRemoved id) past
    (profileRevision s.core.db id)

/-- What a transition does to the rows of nodes and profiles. -/
structure Advances (db next : Db) : Prop where
  nodes : ∀ key m, db.fleet.nodes.lookup key = some m →
    (∃ n, next.fleet.nodes.lookup key = some n ∧ m.desiredRevision ≤ n.desiredRevision) ∨
      next.fleet.nodes.lookup key = none
  profiles : ∀ id p, db.access.profiles.lookup id = some p →
    (∃ q, next.access.profiles.lookup id = some q ∧ p.desiredRevision ≤ q.desiredRevision) ∨
      next.access.profiles.lookup id = none

theorem Advances.nodeLeads {db next : Db} (advances : Advances db next) {past es : List BackupEvent}
    {key : NodeKey}
    (leads : Leads (sentNode key) (· = .nodeRemoved key) past (nodeRevision db key))
    (below : ∀ e ∈ es, ∀ r, sentNode key e r →
      ∃ n, next.fleet.nodes.lookup key = some n ∧ r ≤ n.desiredRevision) :
    Leads (sentNode key) (· = .nodeRemoved key) (past ++ (es ++ BackupSystem.changes db next))
      (nodeRevision next key) := by
  unfold nodeRevision at leads ⊢
  refine leads.step (fun quiet r present => ?_) fun e listed r shown => ?_
  · obtain ⟨m, row, rfl⟩ := Option.map_eq_some_iff.mp present
    rcases advances.nodes key m row with ⟨n, kept, rises⟩ | gone
    · exact ⟨n.desiredRevision, by rw [kept]; rfl, rises⟩
    · exact absurd rfl (quiet _ (List.mem_append_right _ (node_removed row gone)))
  · rcases List.mem_append.mp listed with own | tables
    · obtain ⟨n, row, le⟩ := below e own r shown
      exact ⟨n.desiredRevision, by rw [row]; rfl, le⟩
    · exact absurd shown ((changes_unsent tables).1 key r)

theorem Advances.profileLeads {db next : Db} (advances : Advances db next)
    {past es : List BackupEvent} {id : Uuid}
    (leads : Leads (sentProfile id) (· = .profileRemoved id) past (profileRevision db id))
    (below : ∀ e ∈ es, ∀ r, sentProfile id e r →
      ∃ p, next.access.profiles.lookup id = some p ∧ r ≤ p.desiredRevision) :
    Leads (sentProfile id) (· = .profileRemoved id) (past ++ (es ++ BackupSystem.changes db next))
      (profileRevision next id) := by
  unfold profileRevision at leads ⊢
  refine leads.step (fun quiet r present => ?_) fun e listed r shown => ?_
  · obtain ⟨p, row, rfl⟩ := Option.map_eq_some_iff.mp present
    rcases advances.profiles id p row with ⟨q, kept, rises⟩ | gone
    · exact ⟨q.desiredRevision, by rw [kept]; rfl, rises⟩
    · exact absurd rfl (quiet _ (List.mem_append_right _ (profile_removed row gone)))
  · rcases List.mem_append.mp listed with own | tables
    · obtain ⟨p, row, le⟩ := below e own r shown
      exact ⟨p.desiredRevision, by rw [row]; rfl, le⟩
    · exact absurd shown ((changes_unsent tables).2 id r)

section Steps
variable {locked : Bool} {allow : Fleet → Job → Prop} {db next : Db} {es : List Event}

theorem advances_of_steps (sound : Sound db) (ran : Steps (Change locked allow) db es next) :
    Advances db next where
  nodes := by
    intro key m row
    rcases steps_to sound ran row with kept | ⟨gone, _⟩
    · exact .inl kept
    · exact .inr gone
  profiles := fun id p row => .inl (profiles_to ran row)

end Steps

variable {past : List BackupEvent} {s : BackupSystem}

/-- What the worker holds was queued at or below the revision of the row that is there. -/
theorem sent_below (kept : Kept past s) {c : Call} {e : Event} (shown : e ∈ (s.core.exec c).2) :
    (∀ key r, sentNode key (.core e) r → ∃ n, (s.core.exec c).1.db.fleet.nodes.lookup key = some n ∧
      r ≤ n.desiredRevision) ∧
    ∀ id r, sentProfile id (.core e) r →
      ∃ p, (s.core.exec c).1.db.access.profiles.lookup id = some p ∧ r ≤ p.desiredRevision := by
  have holds := kept.holds
  cases System.exec_reports shown with
  | @executed now row held live =>
    refine ⟨fun _ _ => False.elim, ?_⟩
    rintro id r ⟨rfl, rfl⟩
    have same : (s.core.exec (.sendTask now)).1.db = s.core.db := by
      simp only [System.exec, held, System.sendTask, live]
      rfl
    rw [held] at holds
    obtain ⟨t, listed, itself, _⟩ := holds
    rw [same, ← itself]
    exact kept.sound.revisions t listed
  | @applied task held =>
    refine ⟨?_, fun _ _ => False.elim⟩
    rintro key r ⟨rfl, rfl⟩
    have same : (s.core.exec .sendSettings).1.db = s.core.db := by
      simp only [System.exec, held]
    rw [held] at holds
    rw [same]
    rcases kept.sequenced.settings _ holds with row | ⟨_, bad⟩
    · exact row
    · cases bad
  | @acted j held =>
    refine ⟨?_, fun _ _ => False.elim⟩
    rintro key r ⟨rfl, rfl⟩
    have same : (s.core.exec .sendJob).1.db = s.core.db := by
      simp only [System.exec, held, System.sendJob]
    rw [held] at holds
    rw [same]
    rcases kept.sequenced.jobs _ holds with row | ⟨_, bad⟩
    · exact row
    · cases bad
  | confirms agent =>
    cases e with
    | wrote | cleaned => exact ⟨fun _ _ => False.elim, fun _ _ => False.elim⟩
    | _ => cases agent
  | _ => exact ⟨fun _ _ => False.elim, fun _ _ => False.elim⟩

/-- Commands at or below the revisions of rows that are there. -/
def Below (db : Db) (es : List Event) : Prop :=
  ∀ e ∈ es,
    (∀ key r, sentNode key (.core e) r →
      ∃ n, db.fleet.nodes.lookup key = some n ∧ r ≤ n.desiredRevision) ∧
    ∀ id r, sentProfile id (.core e) r →
      ∃ p, db.access.profiles.lookup id = some p ∧ r ≤ p.desiredRevision

theorem Kept.moves (kept : Kept past s) {t : BackupSystem} {es : List Event}
    (sound : Sound t.core.db) (holds : t.core.holder.Holds t.core.db)
    (sequenced : Sequenced t.core.db) (advances : Advances s.core.db t.core.db)
    (below : Below t.core.db es) :
    Kept (past ++ (es.map .core ++ BackupSystem.changes s.core.db t.core.db)) t := by
  refine ⟨sound, holds, sequenced, fun key => ?_, fun id => ?_⟩
  · refine advances.nodeLeads (kept.nodes key) fun e listed r shown => ?_
    obtain ⟨own, member, rfl⟩ := List.mem_map.mp listed
    exact (below own member).1 key r shown
  · refine advances.profileLeads (kept.profiles id) fun e listed r shown => ?_
    obtain ⟨own, member, rfl⟩ := List.mem_map.mp listed
    exact (below own member).2 id r shown

/-- A transition by changes, with the worker's commands. -/
theorem Kept.advance (kept : Kept past s) {locked : Bool} {allow : Fleet → Job → Prop}
    {ces : List Event} {core : System} {es : List Event} (restorations : List Restoration)
    (ran : Steps (Change locked allow) s.core.db ces core.db) (holds : core.holder.Holds core.db)
    (below : Below core.db es) :
    Kept (past ++ (es.map .core ++ BackupSystem.changes s.core.db
      (BackupSystem.gated core restorations).core.db)) (BackupSystem.gated core restorations) := by
  have sound := kept.sound.steps ran
  have gate : Change false allow core.db [] (BackupSystem.gated core restorations).core.db :=
    .maintain _
  have rows := advances_of_steps kept.sound ran
  exact kept.moves (sound.step gate) (holds.step sound.numbered gate)
    ((kept.sequenced.steps kept.sound ran).step sound gate) ⟨rows.nodes, rows.profiles⟩ below

theorem revoke_reaches (now : Time) (actor : Uuid) (state : Db × List Uuid) (profile : Uuid) :
    Reaches true (fun _ _ => True) state.1 [] (BackupService.revoke now actor state profile).1 :=
  (Reaches.freeze profile).after (Reaches.renewAll now actor profile rfl)

theorem revokeAll_reaches (db : Db) (now : Time) (actor : Uuid) :
    Reaches true (fun _ _ => True) db [] (BackupService.revokeAll db now actor).1 := by
  have fold : ∀ (ids : List Uuid) (state : Db × List Uuid), Reaches true (fun _ _ => True) state.1 []
      (ids.foldl (BackupService.revoke now actor) state).1 := by
    intro ids
    induction ids with
    | nil => exact fun state => Reaches.refl _
    | cons id rest ih => exact fun state => (revoke_reaches now actor state id).after (ih _)
  exact fold _ (db, [])

theorem restored_sound (db : Db) (actor : Uuid) (b : Backup) (former : Option Uuid) :
    Sound (BackupService.restored db actor b former) where
  numbered := by
    refine ⟨⟨List.nodup_nil, by simp [BackupService.restored]⟩,
      ⟨List.nodup_nil, by simp [BackupService.restored]⟩,
      ⟨List.nodup_nil, by simp [BackupService.restored]⟩, ?_, ?_, ?_⟩
    · intro id p row
      simp only [BackupService.restored, Table.lookup_mapRows] at row
      obtain ⟨q, kept, _⟩ := Option.map_eq_some_iff.mp row
      exact Nat.lt_of_lt_of_le (b.profilesDrawn id q kept) (Nat.le_max_right ..)
    · intro id d row
      exact Nat.lt_of_lt_of_le (b.devicesDrawn id d row) (Nat.le_max_right ..)
    · intro slot r row
      obtain ⟨drawn, free⟩ := b.slotsDrawn slot r row
      exact ⟨Nat.lt_of_lt_of_le drawn (Nat.le_max_right ..), free⟩
  exclusive := ⟨by simp [BackupService.restored], by simp [BackupService.restored],
    by simp [BackupService.restored], by simp [BackupService.restored],
    by simp [BackupService.restored], by simp [BackupService.restored]⟩
  revisions := by simp [Revisions, BackupService.restored]
  known := by simp [AllKnown, BackupService.restored]
  owned := b.slotsOwned
  fenced := ⟨by simp [BackupService.restored], by simp [BackupService.restored],
    by simp [BackupService.restored], by simp [BackupService.restored],
    by simp [BackupService.restored, Fleet.retired]⟩

theorem restored_sequenced (db : Db) (actor : Uuid) (b : Backup) (former : Option Uuid) :
    Sequenced (BackupService.restored db actor b former) :=
  ⟨by simp [BackupService.restored], by simp [BackupService.restored],
    by simp [BackupService.restored]⟩

theorem raised_above (kept m : ℕ) : m ≤ BackupService.raised kept (some m) :=
  Nat.le_succ_of_le (Nat.le_max_right ..)

theorem restored_advances (db : Db) (actor : Uuid) (b : Backup) (former : Option Uuid) :
    Advances db (BackupService.restored db actor b former) where
  nodes := by
    intro key m row
    simp only [BackupService.restored, Table.lookup_mapRows]
    cases b.nodes.lookup key with
    | none => exact .inr rfl
    | some n =>
      left
      refine ⟨_, rfl, ?_⟩
      rw [row]
      exact raised_above ..
  profiles := by
    intro id p row
    simp only [BackupService.restored, Table.lookup_mapRows]
    cases b.profiles.lookup id with
    | none => exact .inr rfl
    | some q =>
      left
      refine ⟨_, rfl, ?_⟩
      rw [row]
      exact raised_above ..

/-- What a call does: nothing, a call of the controller, changes of its tables or jobs,
or a restore. -/
inductive Transition (s : BackupSystem) : BackupSystem → List Event → Prop
  | same : Transition s s []
  | worker (c : Call) (rs : List Restoration) :
    Transition s (BackupSystem.gated (s.core.exec c).1 rs) (s.core.exec c).2
  | quiet {core : System} (rs : List Restoration)
      (ran : Reaches true (fun _ _ => True) s.core.db [] core.db)
      (holds : s.core.holder.Holds s.core.db → core.holder.Holds core.db) :
    Transition s (BackupSystem.gated core rs) []
  | restored (actor : Uuid) (b : Backup) (former : Option Uuid) (rs : List Restoration) :
    Transition s
      (BackupSystem.gated ⟨BackupService.restored s.core.db actor b former, .free⟩ rs) []

/-- Only the jobs change. -/
theorem Transition.jobs (s : BackupSystem) (rs : List Restoration) :
    Transition s (BackupSystem.gated s.core rs) [] :=
  .quiet rs (Reaches.refl _) id

theorem restore_transition (s : BackupSystem) (former : Option Uuid) (accepted : Bool) :
    Transition s (s.restore former accepted) [] := by
  unfold BackupSystem.restore
  split
  · split
    · exact .restored ..
    · exact .jobs ..
  · split
    · split
      · exact .jobs ..
      · exact .same
    · exact .same

theorem revoke_transition (s : BackupSystem) (now : Time) (accepted : Bool) :
    Transition s (s.revokeProfiles now accepted) [] := by
  unfold BackupSystem.revokeProfiles
  split
  · next r free _ =>
    split
    · exact .same
    · split
      · exact .jobs ..
      · exact .quiet _ (revokeAll_reaches s.core.db now r.actor) fun _ => trivial
  · exact .same

theorem step_transition (s : BackupSystem) (c : BackupCall) :
    Transition s (s.step c).1 (s.step c).2 := by
  cases c with
  | core c => exact .worker c _
  | queueRestore actor backup =>
    simp only [BackupSystem.step, BackupSystem.queueRestore]
    split
    · exact .same
    · exact .jobs ..
  | resumeRestore actor id =>
    simp only [BackupSystem.step, BackupSystem.resumeRestore]
    split
    · exact .jobs ..
    · exact .same
  | cancelRestore id =>
    simp only [BackupSystem.step, BackupSystem.cancelRestore]
    split
    · exact .jobs ..
    · exact .same
  | revokeProfiles now accepted => exact revoke_transition s now accepted
  | restore former accepted => exact restore_transition s former accepted

theorem Kept.transition (kept : Kept past s) {t : BackupSystem} {es : List Event}
    (moved : Transition s t es) :
    Kept (past ++ (es.map .core ++ BackupSystem.changes s.core.db t.core.db)) t := by
  cases moved with
  | same =>
    exact kept.moves kept.sound kept.holds kept.sequenced
      ⟨fun key m row => .inl ⟨m, row, Nat.le_refl _⟩, fun id p row => .inl ⟨p, row, Nat.le_refl _⟩⟩
      (by simp [Below])
  | worker c rs =>
    have covers : System.Covers (fun _ _ => True) c.locked s.core (s.core.exec c) :=
      System.exec_covers c kept.sound kept.holds fun _ _ => trivial
    exact kept.advance rs covers.run covers.holds fun e listed => sent_below kept listed
  | quiet rs ran holds =>
    exact kept.advance rs (ran kept.sound) (holds kept.holds) (by simp [Below])
  | restored actor b former rs =>
    have gate : Change false (fun _ _ => True)
        (BackupService.restored s.core.db actor b former) []
        (BackupSystem.gated ⟨BackupService.restored s.core.db actor b former, .free⟩ rs).core.db :=
      .maintain _
    have sound := restored_sound s.core.db actor b former
    have rows := restored_advances s.core.db actor b former
    exact kept.moves (sound.step gate) trivial
      ((restored_sequenced s.core.db actor b former).step sound gate)
      ⟨rows.nodes, rows.profiles⟩ (by simp [Below])

theorem Kept.step (kept : Kept past s) (c : BackupCall) :
    Kept (past ++ (s.exec c).2) (s.exec c).1 :=
  kept.transition (step_transition s c)

theorem start_kept : Kept [] BackupSystem.start where
  sound := Sound.empty
  holds := trivial
  sequenced := ⟨by simp [BackupSystem.start, System.start, Db.empty],
    by simp [BackupSystem.start, System.start, Db.empty],
    by simp [BackupSystem.start, System.start, Db.empty]⟩
  nodes := fun _ => Leads.nil
  profiles := fun _ => Leads.nil

theorem after_kept (calls : List BackupCall) :
    Kept (BackupSystem.history calls) (BackupSystem.after calls) :=
  run_invariant Kept (fun _ _ c kept => kept.step c) start_kept calls

/-! The restore. -/

/-- A node key is live, or `create` does not refuse it as retired. -/
def Usable (db : Db) (key : NodeKey) : Prop :=
  (db.fleet.nodes.lookup key).isSome = true ∨ db.fleet.retired key = false

/-- No agent refuses the next command as stale, and retired keys stay fenced. -/
structure Ahead (past : List BackupEvent) (db : Db) : Prop where
  nodes : ∀ key n, db.fleet.nodes.lookup key = some n →
    ∀ e ∈ past, ∀ r, sentNode key e r → r < n.desiredRevision
  profiles : ∀ id p, db.access.profiles.lookup id = some p →
    ∀ e ∈ past, ∀ r, sentProfile id e r → r < p.desiredRevision
  retired : ∀ key, .retired key ∈ past → ¬Usable db key

/-- Whatever was sent for an earlier row of a restored node or profile lies at or below
the backup's revision, or that of the row that is there; and no key has been retired. -/
structure Remembered (past : List BackupEvent) (db : Db) (b : Backup) : Prop where
  nodes : ∀ key n, b.nodes.lookup key = some n →
    ∀ r, SentBefore (sentNode key) (· = .nodeRemoved key) past r →
      r ≤ n.desiredRevision ∨ ∃ m, nodeRevision db key = some m ∧ r ≤ m
  profiles : ∀ id p, b.profiles.lookup id = some p →
    ∀ r, SentBefore (sentProfile id) (· = .profileRemoved id) past r →
      r ≤ p.desiredRevision ∨ ∃ m, profileRevision db id = some m ∧ r ≤ m
  retired : ∀ key, .retired key ∉ past

theorem restored_nodes (kept : Kept past s) (actor : Uuid) (b : Backup) (former : Option Uuid) :
    (∀ key n, (BackupService.restored s.core.db actor b former).fleet.nodes.lookup key = some n →
      ∀ e ∈ past, ∀ r, sentNode key e r → r < n.desiredRevision) ↔
    ∀ key n, b.nodes.lookup key = some n →
      ∀ r, SentBefore (sentNode key) (· = .nodeRemoved key) past r →
        r ≤ n.desiredRevision ∨ ∃ m, nodeRevision s.core.db key = some m ∧ r ≤ m := by
  simp only [BackupService.restored, Table.lookup_mapRows]
  constructor
  · intro ahead key n row
    exact ((kept.nodes key).above_iff n.desiredRevision).mp
      (ahead key _ (by rw [row, Option.map_some]))
  · intro remembered key n row
    obtain ⟨m, found, rfl⟩ := Option.map_eq_some_iff.mp row
    exact ((kept.nodes key).above_iff m.desiredRevision).mpr (remembered key m found)

theorem restored_profiles (kept : Kept past s) (actor : Uuid) (b : Backup)
    (former : Option Uuid) :
    (∀ id p, (BackupService.restored s.core.db actor b former).access.profiles.lookup id = some p →
      ∀ e ∈ past, ∀ r, sentProfile id e r → r < p.desiredRevision) ↔
    ∀ id p, b.profiles.lookup id = some p →
      ∀ r, SentBefore (sentProfile id) (· = .profileRemoved id) past r →
        r ≤ p.desiredRevision ∨ ∃ m, profileRevision s.core.db id = some m ∧ r ≤ m := by
  simp only [BackupService.restored, Table.lookup_mapRows]
  constructor
  · intro ahead id p row
    exact ((kept.profiles id).above_iff p.desiredRevision).mp
      (ahead id _ (by rw [row, Option.map_some]))
  · intro remembered id p row
    obtain ⟨q, found, rfl⟩ := Option.map_eq_some_iff.mp row
    exact ((kept.profiles id).above_iff q.desiredRevision).mpr (remembered id q found)

theorem ahead_iff (kept : Kept past s) (actor : Uuid) (b : Backup) (former : Option Uuid) :
    Ahead past (BackupService.restored s.core.db actor b former) ↔ Remembered past s.core.db b := by
  constructor
  · intro ahead
    refine ⟨(restored_nodes kept actor b former).mp ahead.nodes,
      (restored_profiles kept actor b former).mp ahead.profiles, fun key retired => ?_⟩
    refine ahead.retired key retired (.inr ?_)
    simp [BackupService.restored, Fleet.retired]
  · intro remembered
    exact ⟨(restored_nodes kept actor b former).mpr remembered.nodes,
      (restored_profiles kept actor b former).mpr remembered.profiles,
      fun key retired => absurd retired (remembered.retired key)⟩

/-! Commands after the restore. -/

/-- The row of a node and its queued work lie at or above `floor`. -/
structure NodeFloor (db : Db) (key : NodeKey) (floor : ℕ) : Prop where
  row : ∃ n, db.fleet.nodes.lookup key = some n ∧ floor ≤ n.desiredRevision
  settings : ∀ t ∈ db.fleet.settingsTasks, t.node = key → floor ≤ t.revision
  jobs : ∀ j ∈ db.fleet.jobs, j.node = key → floor ≤ j.revision

/-- The row of a profile and its tasks lie at or above `floor`. -/
structure ProfileFloor (db : Db) (id : Uuid) (floor : ℕ) : Prop where
  row : ∃ p, db.access.profiles.lookup id = some p ∧ floor ≤ p.desiredRevision
  tasks : ∀ t ∈ db.outbox.tasks, t.row.profile = id → floor ≤ t.row.revision

section Floors
variable {locked : Bool} {allow : Fleet → Job → Prop} {db next : Db} {es : List Event}

theorem Queued.floor {key : NodeKey} {n : Node} {floor revision : ℕ}
    (queued : Queued next.fleet key revision)
    (row : next.fleet.nodes.lookup key = some n) (above : floor ≤ n.desiredRevision) :
    floor ≤ revision := by
  obtain ⟨_, m, found, rfl⟩ := queued
  rw [row] at found
  cases found
  exact above

theorem NodeFloor.step {key : NodeKey} {floor : ℕ} (above : NodeFloor db key floor)
    (numbered : Numbered db) (change : Change locked allow db es next) :
    NodeFloor next key floor ∨
      (next.fleet.nodes.lookup key = none ∧ next.fleet.retired key = true) := by
  obtain ⟨m, row, low⟩ := above.row
  rcases change_to change row with ⟨n, found, rises⟩ | ⟨_, gone⟩
  · have reach := Nat.le_trans low rises
    refine .inl ⟨⟨n, found, reach⟩, fun t listed mine => ?_, fun k listed mine => ?_⟩
    · rcases settings_from numbered change listed with ⟨s, old, step⟩ | queued
      · rw [step.shape] at mine ⊢
        exact above.settings s old mine
      · rw [mine] at queued
        exact queued.floor found reach
    · rcases jobs_from numbered change listed with ⟨j, old, step⟩ | queued
      · rw [step.shape] at mine ⊢
        exact above.jobs j old mine
      · rw [mine] at queued
        exact queued.floor found reach
  · exact .inr gone

theorem NodeFloor.steps {key : NodeKey} {floor : ℕ} (above : NodeFloor db key floor)
    (sound : Sound db) (ran : Steps (Change locked allow) db es next) :
    NodeFloor next key floor ∨ next.fleet.nodes.lookup key = none := by
  induction ran with
  | refl => exact .inl above
  | head step rest ih =>
    rcases above.step sound.numbered step with kept | ⟨_, retired⟩
    · exact ih kept (sound.step step)
    · exact .inr (steps_retired (sound.step step) rest retired).1

theorem ProfileFloor.step {id : Uuid} {floor : ℕ} (above : ProfileFloor db id floor)
    (numbered : Numbered db) (change : Change locked allow db es next) :
    ProfileFloor next id floor := by
  obtain ⟨p, row, low⟩ := above.row
  obtain ⟨q, found, rises⟩ := change.profiles_grow id p row
  refine ⟨⟨q, found, Nat.le_trans low rises⟩, fun u listed mine => ?_⟩
  rcases change.task_from numbered listed with ⟨t, old, step⟩ | recorded
  · rw [step.row] at mine ⊢
    exact above.tasks t old mine
  · obtain ⟨now, actor, profile, previous, scope, rfl, _, new⟩ := recorded
    obtain ⟨its, _, _, known, _, _, _, _, owner, revision, _⟩ := OperationRepository.created_task new
    rw [owner] at mine
    subst mine
    rw [known] at row
    cases row
    exact revision ▸ low

theorem ProfileFloor.steps {id : Uuid} {floor : ℕ} (above : ProfileFloor db id floor)
    (sound : Sound db) (ran : Steps (Change locked allow) db es next) :
    ProfileFloor next id floor := by
  induction ran with
  | refl => exact above
  | head step _ ih => exact ih (above.step sound.numbered step) (sound.step step)

end Floors

/-- Commands for the node lie at or above `floor`, until its row is removed. -/
def NodeFollows (key : NodeKey) (floor : ℕ) (past : List BackupEvent) (s : BackupSystem) : Prop :=
  .nodeRemoved key ∈ past ∨
    (NodeFloor s.core.db key floor ∧ ∀ e ∈ past, ∀ r, sentNode key e r → floor ≤ r)

def ProfileFollows (id : Uuid) (floor : ℕ) (past : List BackupEvent) (s : BackupSystem) : Prop :=
  .profileRemoved id ∈ past ∨
    (ProfileFloor s.core.db id floor ∧ ∀ e ∈ past, ∀ r, sentProfile id e r → floor ≤ r)

theorem NodeFollows.transition {key : NodeKey} {floor : ℕ} {since : List BackupEvent}
    (kept : Kept past s) (follows : NodeFollows key floor since s) {t : BackupSystem}
    {es : List Event} (moved : Transition s t es) :
    NodeFollows key floor (since ++ (es.map .core ++ BackupSystem.changes s.core.db t.core.db)) t := by
  rcases follows with gone | ⟨above, sent⟩
  · exact .inl (List.mem_append_left _ gone)
  · obtain ⟨m, row, low⟩ := above.row
    have removal : t.core.db.fleet.nodes.lookup key = none → NodeFollows key floor
        (since ++ (es.map .core ++ BackupSystem.changes s.core.db t.core.db)) t := fun none_ =>
      .inl (List.mem_append_right _ (List.mem_append_right _ (node_removed row none_)))
    have stays : NodeFloor t.core.db key floor →
        (∀ e ∈ es, ∀ r, sentNode key (.core e) r → floor ≤ r) → NodeFollows key floor
          (since ++ (es.map .core ++ BackupSystem.changes s.core.db t.core.db)) t := by
      intro next own
      refine .inr ⟨next, fun e listed r shown => ?_⟩
      rcases List.mem_append.mp listed with before | new
      · exact sent e before r shown
      · rcases List.mem_append.mp new with ours | tables
        · obtain ⟨e, member, rfl⟩ := List.mem_map.mp ours
          exact own e member r shown
        · exact absurd shown ((changes_unsent tables).1 key r)
    cases moved with
    | same => exact stays above (by simp)
    | worker c rs =>
      have covers : System.Covers (fun _ _ => True) c.locked s.core (s.core.exec c) :=
        System.exec_covers c kept.sound kept.holds fun _ _ => trivial
      have holds := kept.holds
      rcases above.steps kept.sound covers.run with next | none_
      · refine stays ⟨next.row, next.settings, next.jobs⟩ fun e listed r shown => ?_
        cases System.exec_reports listed with
        | @applied task held =>
          obtain ⟨mine, rfl⟩ := shown
          rw [held] at holds
          exact above.settings { task with status := .running } holds mine
        | @acted j held =>
          obtain ⟨mine, rfl⟩ := shown
          rw [held] at holds
          exact above.jobs { j with status := .running } holds mine
        | confirms agent =>
          cases e with
          | wrote | cleaned => cases shown
          | _ => cases agent
        | _ => cases shown
      · exact removal none_
    | quiet rs ran holds =>
      rcases above.steps kept.sound (ran kept.sound) with next | none_
      · exact stays ⟨next.row, next.settings, next.jobs⟩ (by simp)
      · exact removal none_
    | restored actor b former rs =>
      rcases (restored_advances s.core.db actor b former).nodes key m row with ⟨n, found, le⟩ | none_
      · exact stays ⟨⟨n, found, Nat.le_trans low le⟩, (fun _ listed => by cases listed),
          fun _ listed => by cases listed⟩ (by simp)
      · exact removal none_

theorem ProfileFollows.transition {id : Uuid} {floor : ℕ} {since : List BackupEvent}
    (kept : Kept past s) (follows : ProfileFollows id floor since s) {t : BackupSystem}
    {es : List Event} (moved : Transition s t es) :
    ProfileFollows id floor
      (since ++ (es.map .core ++ BackupSystem.changes s.core.db t.core.db)) t := by
  rcases follows with gone | ⟨above, sent⟩
  · exact .inl (List.mem_append_left _ gone)
  · obtain ⟨p, row, low⟩ := above.row
    have stays : ProfileFloor t.core.db id floor →
        (∀ e ∈ es, ∀ r, sentProfile id (.core e) r → floor ≤ r) → ProfileFollows id floor
          (since ++ (es.map .core ++ BackupSystem.changes s.core.db t.core.db)) t := by
      intro next own
      refine .inr ⟨next, fun e listed r shown => ?_⟩
      rcases List.mem_append.mp listed with before | new
      · exact sent e before r shown
      · rcases List.mem_append.mp new with ours | tables
        · obtain ⟨e, member, rfl⟩ := List.mem_map.mp ours
          exact own e member r shown
        · exact absurd shown ((changes_unsent tables).2 id r)
    cases moved with
    | same => exact stays above (by simp)
    | worker c rs =>
      have covers : System.Covers (fun _ _ => True) c.locked s.core (s.core.exec c) :=
        System.exec_covers c kept.sound kept.holds fun _ _ => trivial
      have holds := kept.holds
      have next := above.steps kept.sound covers.run
      refine stays ⟨next.row, next.tasks⟩ fun e listed r shown => ?_
      cases System.exec_reports listed with
      | @executed now task held live =>
        obtain ⟨mine, rfl⟩ := shown
        rw [held] at holds
        obtain ⟨t, member, rfl, _⟩ := holds
        exact above.tasks t member mine
      | confirms agent =>
        cases e with
        | wrote | cleaned => cases shown
        | _ => cases agent
      | _ => cases shown
    | quiet rs ran holds =>
      have next := above.steps kept.sound (ran kept.sound)
      exact stays ⟨next.row, next.tasks⟩ (by simp)
    | restored actor b former rs =>
      rcases (restored_advances s.core.db actor b former).profiles id p row with ⟨q, found, le⟩ | none_
      · exact stays ⟨⟨q, found, Nat.le_trans low le⟩, fun _ listed => by cases listed⟩ (by simp)
      · exact .inl (List.mem_append_right _ (List.mem_append_right _ (profile_removed row none_)))

theorem run_nodeFollows (kept : Kept past s) {since : List BackupEvent} {key : NodeKey}
    {floor : ℕ} (follows : NodeFollows key floor since s) (later : List BackupCall) :
    NodeFollows key floor (since ++ (run BackupSystem.exec s later).2)
      (run BackupSystem.exec s later).1 :=
  (run_invariant (fun since s => (∃ past, Kept past s) ∧ NodeFollows key floor since s)
    (fun _ s c ⟨⟨_, kept⟩, follows⟩ =>
      ⟨⟨_, kept.step c⟩, follows.transition kept (step_transition s c)⟩)
    ⟨⟨past, kept⟩, follows⟩ later).2

theorem run_profileFollows (kept : Kept past s) {since : List BackupEvent} {id : Uuid}
    {floor : ℕ} (follows : ProfileFollows id floor since s) (later : List BackupCall) :
    ProfileFollows id floor (since ++ (run BackupSystem.exec s later).2)
      (run BackupSystem.exec s later).1 :=
  (run_invariant (fun since s => (∃ past, Kept past s) ∧ ProfileFollows id floor since s)
    (fun _ s c ⟨⟨_, kept⟩, follows⟩ =>
      ⟨⟨_, kept.step c⟩, follows.transition kept (step_transition s c)⟩)
    ⟨⟨past, kept⟩, follows⟩ later).2

/-- The state after a restore that is due and accepted. -/
theorem restore_state {r : Restoration} (due : s.due = some r) (former : Option Uuid) :
    ∃ rs, (s.exec (.restore former true)).1 =
      BackupSystem.gated ⟨BackupService.restored s.core.db r.actor r.backup former, .free⟩ rs := by
  refine ⟨s.update r.id fun q => { q with status := .succeeded }, ?_⟩
  simp only [BackupSystem.exec, BackupSystem.step, BackupSystem.restore, due, if_true]

/-- In every run, a restore puts every node and profile of its backup above every command
ever sent for it, with every retired key still fenced, exactly if what was sent for earlier
rows is remembered by the backup or by the present rows and no key has been retired. Later
commands, as long as the row is not removed, lie at or above the restored revision. -/
theorem restore_keeps_ahead (calls : List BackupCall) (former : Option Uuid) {r : Restoration}
    (due : (BackupSystem.after calls).due = some r) :
    (Ahead (BackupSystem.history calls)
        ((BackupSystem.after calls).exec (.restore former true)).1.core.db ↔
      Remembered (BackupSystem.history calls) (BackupSystem.after calls).core.db r.backup) ∧
    ∀ later,
      let restored := ((BackupSystem.after calls).exec (.restore former true)).1
      let since := (run BackupSystem.exec restored later).2
      (∀ key n, restored.core.db.fleet.nodes.lookup key = some n → .nodeRemoved key ∉ since →
        ∀ e ∈ since, ∀ q, sentNode key e q → n.desiredRevision ≤ q) ∧
      ∀ id p, restored.core.db.access.profiles.lookup id = some p → .profileRemoved id ∉ since →
        ∀ e ∈ since, ∀ q, sentProfile id e q → p.desiredRevision ≤ q := by
  have kept := after_kept calls
  have stepped := kept.step (.restore former true)
  obtain ⟨rs, state⟩ := restore_state due former
  rw [state] at stepped
  rw [state]
  constructor
  · have whole := ahead_iff kept r.actor r.backup former
    constructor
    · exact fun ahead => whole.mp ⟨ahead.nodes, ahead.profiles, ahead.retired⟩
    · intro remembered
      have ahead := whole.mpr remembered
      exact ⟨ahead.nodes, ahead.profiles, ahead.retired⟩
  · intro later
    constructor
    · intro key n row stays e listed q shown
      have start : NodeFollows key n.desiredRevision [] (BackupSystem.gated
          ⟨BackupService.restored (BackupSystem.after calls).core.db r.actor r.backup former,
            .free⟩ rs) :=
        .inr ⟨⟨⟨n, row, Nat.le_refl _⟩, (fun _ listed => by cases listed),
          fun _ listed => by cases listed⟩, by simp⟩
      rcases run_nodeFollows stepped start later with gone | ⟨_, above⟩
      · exact absurd gone (by simpa using stays)
      · exact above e (by simpa using listed) q shown
    · intro id p row stays e listed q shown
      have start : ProfileFollows id p.desiredRevision [] (BackupSystem.gated
          ⟨BackupService.restored (BackupSystem.after calls).core.db r.actor r.backup former,
            .free⟩ rs) :=
        .inr ⟨⟨⟨p, row, Nat.le_refl _⟩, fun _ listed => by cases listed⟩, by simp⟩
      rcases run_profileFollows stepped start later with gone | ⟨_, above⟩
      · exact absurd gone (by simpa using stays)
      · exact above e (by simpa using listed) q shown

/-! A node that is commanded at revision 2 after its backup. -/

def createdNode : List BackupCall :=
  [.core (.request (.createNode 0 0 "a" [.awg] [] (Completeness.stored [.awg]) 0 []))]

/-- The node's IPv6 is switched off, and its settings are written at revision 2. -/
def commandedNode : List BackupCall :=
  let off (s : Settings) := s.set .ipv6Outbound (.text "off")
  createdNode ++
    [.request (.installed "a"),
      .request (.editNode 0 0 "a" 1 ⟨none, none, some (off Settings.empty), false⟩ (0, 0) []),
      .request (.queueSettings 0 0 "a" 2 0), .inspectNode 0 true, .claimSettings true,
      .sendSettings,
      .finishSettings 0 0 (some ⟨"a", 2, ([.awg], off (Completeness.stored [.awg])), none⟩)
        []].map .core

/-- A restore of the backup taken of the created node, up to its last step. -/
def restoring : List BackupCall :=
  [.queueRestore 0 (BackupService.createSnapshot (BackupSystem.after createdNode).core.db
      (after_kept createdNode).sound),
    .revokeProfiles 0 true]

/-- Nothing was removed, so everything sent is remembered. -/
theorem remembered_of_kept {past : List BackupEvent} (db : Db) (b : Backup)
    (kept : (past.all fun e => match e with
      | .core _ => true
      | _ => false) = true) : Remembered past db b := by
  have own : ∀ e ∈ past, ∃ c, e = .core c := by
    intro e listed
    have core := List.all_eq_true.mp kept e listed
    cases e with
    | core c => exact ⟨c, rfl⟩
    | _ => cases core
  refine ⟨fun key n _ r before => ?_, fun id p _ r before => ?_, fun key retired => ?_⟩
  · obtain ⟨earlier, x, later, rfl, removal, _⟩ := before
    obtain ⟨c, rfl⟩ := own x (by simp)
    cases removal
  · obtain ⟨earlier, x, later, rfl, removal, _⟩ := before
    obtain ⟨c, rfl⟩ := own x (by simp)
    cases removal
  · obtain ⟨c, same⟩ := own _ retired
    cases same

theorem restore_keeps_ahead_sample :
    Ahead (BackupSystem.history (commandedNode ++ restoring))
      ((BackupSystem.after (commandedNode ++ restoring)).exec (.restore none true)).1.core.db := by
  have due : (BackupSystem.after (commandedNode ++ restoring)).due.isSome = true := by
    decide
  exact (restore_keeps_ahead _ none (Option.some_get due).symm).1.mpr
    (remembered_of_kept _ _ (by decide))

/-- The node is retired before the restore. -/
def retiredNode : List BackupCall :=
  commandedNode ++ [.core (.abandonNode 0 0 "a"), .core .retireNode] ++ restoring

/-- The restore puts a retired node back at a revision that was sent to it. -/
theorem retired_node_restored :
    (BackupSystem.after retiredNode).due.isSome = true ∧
      ¬Ahead (BackupSystem.history retiredNode)
        ((BackupSystem.after retiredNode).exec (.restore none true)).1.core.db := by
  refine ⟨by decide, fun ahead => ?_⟩
  have sent : ((BackupSystem.history retiredNode).any fun e => match e with
      | .core (.applied t) => t.node = "a" && t.revision = 2
      | _ => false) = true := by decide
  have row : ((((BackupSystem.after retiredNode).exec (.restore none true)).1.core.db.fleet.nodes.lookup
      "a").any fun n => n.desiredRevision = 2) = true := by decide
  obtain ⟨e, listed, shape⟩ := List.any_eq_true.mp sent
  have command : sentNode "a" e 2 := by
    split at shape
    · simpa [sentNode] using shape
    · cases shape
  obtain ⟨n, found, two⟩ := (Option.any_eq_true ..).mp row
  have above := ahead.nodes "a" n found e listed 2 command
  rw [of_decide_eq_true two] at above
  exact Nat.lt_irrefl _ above

end RestoredRevisions
end Controller
end NodePlane
