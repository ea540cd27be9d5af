import NodePlane.Controller.Completeness

/-! The expiry pass: which profiles it revokes, and what remains of their ensures. -/
namespace NodePlane
namespace Controller
namespace ExpiryPass
open Library OperationRepository IntentExecutor

/-! Tasks and the operations that recorded them. -/

structure Linked (db : Db) : Prop where
  drawn : Drawn (db.outbox.operations.map Operation.id) db.fresh
  task : ∀ t ∈ db.outbox.tasks, ∃ o ∈ db.outbox.operations,
    o.columns = (t.row.operation, t.row.profile, t.row.revision)

theorem ids_of_columns {os ps : List Operation}
    (same : os.map Operation.columns = ps.map Operation.columns) :
    os.map Operation.id = ps.map Operation.id := by
  have firsts := congrArg (List.map Prod.fst) same
  simpa only [List.map_map, Function.comp_def, Operation.columns] using firsts

section Records
variable {db : Db} {profile : Uuid} {row : Profile}

/-- The operation that a recording appends, and its tasks. -/
theorem record_operation (now : Time) (actor : Uuid) (previous : List Target)
    (scope : Option (List Target)) (found : db.access.profiles.lookup profile = some row) :
    ∃ o, (record db now actor profile previous scope).outbox.operations =
        db.outbox.operations ++ [o] ∧
      db.fresh ≤ o.id ∧ o.id < (record db now actor profile previous scope).fresh ∧
      o.profile = profile ∧ o.desiredRevision = row.desiredRevision ∧
      ∀ t ∈ created db now actor profile previous scope, t.row.operation = o.id := by
  have prepared := prepare_prepares db profile
  refine ⟨operation (prepare db profile) now actor profile row
    (selected (prepare db profile) profile previous scope), ?_, ?_, ?_, rfl, rfl, ?_⟩
  · unfold record
    rw [found]
    simp only [append]
    rw [prepared.outbox]
  · exact prepared.later
  · unfold record
    rw [found]
    exact Nat.lt_of_lt_of_le (Nat.lt_succ_self _) (Nat.le_add_right _ _)
  · intro t listed
    unfold created at listed
    rw [found] at listed
    obtain ⟨draft, drafted, shape, _, _⟩ := number_row listed
    obtain ⟨target, chosen, built⟩ := List.mem_flatMap.mp drafted
    obtain ⟨peer, known, rfl⟩ := List.mem_map.mp built
    rw [shape]
    rfl

theorem record_missing (now : Time) (actor : Uuid) (previous : List Target)
    (scope : Option (List Target)) (none_ : db.access.profiles.lookup profile = none) :
    record db now actor profile previous scope = db := by
  unfold record
  rw [none_]

end Records

section Changes
variable {locked : Bool} {allow : Fleet → Job → Prop} {db next : Db} {es : List Event}

theorem Linked.keeps (linked : Linked db) {next : Db} (later : db.fresh ≤ next.fresh)
    (operations : SameOperations db next.outbox.operations)
    (tasks : next.outbox.tasks.map Task.row = db.outbox.tasks.map Task.row) : Linked next where
  drawn := by
    rw [ids_of_columns operations]
    exact linked.drawn.mono later
  task := by
    intro u listed
    have row : u.row ∈ db.outbox.tasks.map Task.row := by
      rw [← tasks]
      exact List.mem_map_of_mem listed
    obtain ⟨t, old, same⟩ := List.mem_map.mp row
    obtain ⟨o, member, columns⟩ := linked.task t old
    have kept : o.columns ∈ next.outbox.operations.map Operation.columns := by
      rw [operations]
      exact List.mem_map_of_mem member
    obtain ⟨q, stays, its⟩ := List.mem_map.mp kept
    exact ⟨q, stays, by rw [its, columns, same]⟩

theorem Linked.step (linked : Linked db) (change : Change locked allow db es next) :
    Linked next := by
  have later := change.later
  cases change with
  | access grows kept => exact linked.keeps later kept rfl
  | maintain maintenance => exact linked.keeps later rfl rfl
  | record now actor profile previous scope behind covers =>
    cases found : db.access.profiles.lookup profile with
    | none =>
      rw [record_missing now actor previous scope found]
      exact linked
    | some row =>
      obtain ⟨o, operations, from_, below, owner, revision, its⟩ :=
        record_operation now actor previous scope found
      refine ⟨?_, ?_⟩
      · rw [operations, List.map_append]
        refine linked.drawn.append ⟨List.nodup_singleton _, ?_⟩ ?_ later
        · intro i only
          rw [List.mem_singleton.mp only]
          exact below
        · intro i only
          rw [List.mem_singleton.mp only]
          exact from_
      · intro t listed
        rw [operations]
        rw [record_tasks] at listed
        rcases List.mem_append.mp listed with old | new
        · obtain ⟨q, member, columns⟩ := linked.task t old
          exact ⟨q, List.mem_append_left _ member, columns⟩
        · refine ⟨o, List.mem_append_right _ (List.mem_singleton.mpr rfl), ?_⟩
          obtain ⟨p, _, _, same, _, _, _, _, owns, at_, _⟩ := created_task new
          rw [found] at same
          cases same
          unfold Operation.columns
          rw [its t new, owner, owns, revision, at_]
  | tasks f moves kept =>
    exact linked.keeps later kept (Completeness.rows_kept fun t listed => (moves t listed).row)
  | claim held row free current kept =>
    refine linked.keeps later kept (Completeness.rows_kept fun t _ => ?_)
    split <;> rfl
  | enqueue queued => exact linked.keeps later rfl rfl
  | fleet change => exact linked.keeps later rfl rfl

/-- The profile's current revision has an ensure. -/
def Live (db : Db) (profile : Uuid) (row : Profile) : Prop :=
  ∃ t ∈ db.outbox.tasks, t.row.profile = profile ∧ t.row.revision = row.desiredRevision ∧
    t.row.action = .ensure

/-- The query of the pass finds the profiles that are live. -/
theorem live_iff (linked : Linked db) (profile : Uuid) (row : Profile) :
    Live db profile row ↔ granting db.outbox profile row.desiredRevision ≠ [] := by
  constructor
  · rintro ⟨t, listed, owner, revision, ensure⟩
    obtain ⟨o, member, columns⟩ := linked.task t listed
    simp only [Operation.columns, Prod.mk.injEq] at columns
    obtain ⟨id, owns, at_⟩ := columns
    refine List.ne_nil_of_mem (List.mem_filter.mpr ⟨member, ?_⟩)
    simp only [Bool.and_eq_true, decide_eq_true_eq, List.any_eq_true]
    exact ⟨⟨owns.trans owner, at_.trans revision⟩, t, listed, id.symm, ensure⟩
  · intro some_
    obtain ⟨o, chosen⟩ := List.exists_mem_of_ne_nil _ some_
    obtain ⟨member, picked⟩ := List.mem_filter.mp chosen
    simp only [Bool.and_eq_true, decide_eq_true_eq, List.any_eq_true] at picked
    obtain ⟨⟨owner, revision⟩, t, listed, its, ensure⟩ := picked
    obtain ⟨q, known, columns⟩ := linked.task t listed
    simp only [Operation.columns, Prod.mk.injEq] at columns
    obtain ⟨id, owns, at_⟩ := columns
    have same : q = o := linked.drawn.unique known member (id.trans its)
    rw [same] at owns at_
    exact ⟨t, listed, owns.symm.trans owner, at_.symm.trans revision, ensure⟩

end Changes

/-! One revocation. -/

/-- Every ensure of the profile is followed by a delete of its target. -/
def Spent (tasks : List Task) (profile : Uuid) : Prop :=
  ∀ t ∈ tasks, t.row.profile = profile → t.row.action = .ensure → ∃ u ∈ tasks,
    u.row.For profile (t.row.node, t.row.protocol) t.row.device ∧ u.row.action = .delete ∧
      t.row.revision < u.row.revision

theorem Spent.append {tasks more : List Task} {profile : Uuid} (spent : Spent tasks profile)
    (others : ∀ t ∈ more, t.row.profile = profile → t.row.action = .ensure → False) :
    Spent (tasks ++ more) profile := by
  intro t listed owner ensure
  rcases List.mem_append.mp listed with old | new
  · obtain ⟨u, member, its, delete, later⟩ := spent t old owner ensure
    exact ⟨u, List.mem_append_left _ member, its, delete, later⟩
  · exact (others t new owner ensure).elim

/-- An expired profile is not active. -/
theorem inactive_of_expired {a : Access} {now : Time} {profile : Uuid} {row : Profile}
    (late : expired a now profile row = true) : active row now = false := by
  simp only [expired, Bool.and_eq_true] at late
  cases shape : row.expiresAt with
  | none => simp [shape] at late
  | some time =>
    simp only [shape, Option.any_some, decide_eq_true_eq] at late
    simp [active, shape, Nat.not_lt.mpr late.1.2]

theorem revoked_spent {tasks : List Task} {node : NodeKey} {t : Task}
    (revoked : Revoked tasks node) (listed : t ∈ tasks) (there : t.row.node = node)
    (ensure : t.row.action = .ensure) : ∃ u ∈ tasks,
      u.row.For t.row.profile (t.row.node, t.row.protocol) t.row.device ∧
        u.row.action = .delete ∧ t.row.revision < u.row.revision := by
  obtain ⟨u, member, owner, at_, through, device, delete, later⟩ := revoked t listed there ensure
  exact ⟨u, member, ⟨owner, at_, through, device⟩, delete, later⟩

/-- A recording of a profile that is not active revokes all of it. -/
theorem record_spent {db : Db} (sound : Sound db) {now : Time} (actor : Uuid) {profile : Uuid}
    {row : Profile} (found : db.access.profiles.lookup profile = some row)
    (late : active row now = false)
    (behind : ∀ t ∈ db.outbox.tasks, t.row.profile = profile →
      t.row.revision < row.desiredRevision) :
    Spent (record db now actor profile (targets db profile) none).outbox.tasks profile := by
  rw [record_tasks]
  intro t listed owner ensure
  have deletes : ∀ target device, ¬Entitled db now profile target device := by
    rintro target device entitled
    obtain ⟨p, same, on⟩ := entitled.active
    rw [found] at same
    cases same
    rw [late] at on
    cases on
  rcases List.mem_append.mp listed with old | new
  · by_cases clean : t.row.node ∈ db.fleet.cleanups
    · obtain ⟨u, member, its, delete, later⟩ := revoked_spent
        (sound.fenced.revoked _ (sound.fenced.cleanups _ clean)) old rfl ensure
      exact ⟨u, List.mem_append_left _ member, owner ▸ its, delete, later⟩
    · cases gone : db.fleet.retired t.row.node with
      | true =>
        obtain ⟨u, member, its, delete, later⟩ := revoked_spent
          (sound.fenced.retired _ gone).2 old rfl ensure
        exact ⟨u, List.mem_append_left _ member, owner ▸ its, delete, later⟩
      | false =>
        have known := sound.known t old
        have kept : ¬Forgotten db profile t.row.device := by
          intro forgotten
          rcases known with ⟨d, device, _⟩ | ⟨_, delete, _⟩
          · rw [forgotten.device] at device
            cases device
          · rw [ensure] at delete
            cases delete
        have covers : ∀ t ∈ db.outbox.tasks, t.row.profile = profile →
            (none : Option (List Target)).all (·.contains (t.row.node, t.row.protocol)) = true →
            (t.row.node, t.row.protocol) ∈ targets db profile :=
          fun t listed owns _ => mem_targets listed owns
        obtain ⟨u, new, its, revision, delete⟩ := created_deletes now actor sound.owned found
          covers old known owner rfl clean gone kept (deletes _ _)
        exact ⟨u, List.mem_append_right _ new, its, delete, by
          rw [revision]
          exact behind t old owner⟩
  · have entitled := (created_ensures sound.fenced (t.row.node, t.row.protocol)
      t.row.device).mp ⟨t, new, ⟨owner, rfl, rfl, rfl⟩, ensure⟩
    exact absurd entitled.1 (deletes _ _)

end ExpiryPass
end Controller
end NodePlane
