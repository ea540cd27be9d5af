import NodePlane.Controller.Registry

/-! Nodes over one change, and the fences of drained, cleaned and retired nodes. -/
namespace NodePlane
namespace Controller
open Library

/-! What confirmations make of a node. -/

namespace NodeSettings

def ported (revision : ℕ) (settings : Settings) (awgPort : Option ℕ) (n : Node) : Node :=
  if awgPort.isSome = true ∧ n.desiredRevision = revision then { n with settings := settings }
  else n

variable {revision : ℕ} {settings : Settings} {awgPort : Option ℕ} {n : Node}

@[simp] theorem ported_desired :
    (ported revision settings awgPort n).desiredRevision = n.desiredRevision := by
  unfold ported
  split <;> rfl

@[simp] theorem ported_applied :
    (ported revision settings awgPort n).appliedRevision = n.appliedRevision := by
  unfold ported
  split <;> rfl

@[simp] theorem ported_enabled : (ported revision settings awgPort n).enabled = n.enabled := by
  unfold ported
  split <;> rfl

@[simp] theorem ported_protocols :
    (ported revision settings awgPort n).protocols = n.protocols := by
  unfold ported
  split <;> rfl

theorem lookup_persist (nodes : Table NodeKey Node) (key k : NodeKey) (revision : ℕ)
    (settings : Settings) (awgPort : Option ℕ) :
    (persistSelectedPort nodes key revision settings awgPort).lookup k =
      if k = key then (nodes.lookup key).map (ported revision settings awgPort)
      else nodes.lookup k := by
  unfold persistSelectedPort
  split
  · next some_ =>
    have same : ported revision settings awgPort = fun n =>
        if n.desiredRevision = revision then { n with settings := settings } else n := by
      funext n
      simp [ported, some_]
    rw [Table.lookup_alter, same]
  · next none_ =>
    have same : ported revision settings awgPort = id := by
      funext n
      simp [ported, none_]
    rw [same, Option.map_id]
    split
    · next is => rw [is]; rfl
    · rfl

end NodeSettings

namespace NodeSettingsExecutor

/-- A node after the confirmed task `s`. -/
def appliedNode (s : SettingsTask) (draining : Bool) (settings : Settings)
    (awgPort : Option ℕ) (n : Node) : Node :=
  let n := NodeSettings.ported s.revision settings awgPort n
  if n.appliedRevision < s.revision ∧ s.revision ≤ n.desiredRevision ∧ draining = false then
    { n with
      appliedRevision := s.revision
      enabled := if n.desiredRevision = s.revision then true else n.enabled }
  else n

theorem lookup_applied (f : Fleet) (s : SettingsTask) (settings : Settings)
    (awgPort : Option ℕ) (k : NodeKey) :
    (applied f s settings awgPort).lookup k =
      if k = s.node then
        (f.nodes.lookup s.node).map (appliedNode s (f.draining s.node) settings awgPort)
      else f.nodes.lookup k := by
  unfold applied
  rw [Table.lookup_alter]
  split
  · rw [NodeSettings.lookup_persist, if_pos rfl, Option.map_map]
    rfl
  · next other => rw [NodeSettings.lookup_persist, if_neg other]

end NodeSettingsExecutor

namespace NodeOperations

/-- A node after the confirmed job `j`. -/
def completedNode (j : Job) (settings : Settings) (awgPort : Option ℕ) (n : Node) : Node :=
  let n := NodeSettings.ported j.revision settings awgPort n
  if n.desiredRevision ≠ j.revision then n
  else if j.action = .cleanupRuntime then { n with appliedRevision := 0, enabled := false }
  else if j.action.invalidate then { n with appliedRevision := j.revision, enabled := true }
  else n

theorem lookup_completed (f : Fleet) (j : Job) (settings : Settings) (awgPort : Option ℕ)
    (k : NodeKey) :
    (completed f j settings awgPort).lookup k =
      if k = j.node then (f.nodes.lookup j.node).map (completedNode j settings awgPort)
      else f.nodes.lookup k := by
  unfold completed
  rw [Table.lookup_alter]
  split
  · rw [NodeSettings.lookup_persist, if_pos rfl, Option.map_map]
    rfl
  · next other => rw [NodeSettings.lookup_persist, if_neg other]

end NodeOperations

theorem draining_iff {f : Fleet} {key : NodeKey} : f.draining key = true ↔ key ∈ f.drains := by
  simp [Fleet.draining]

theorem draining_false {f : Fleet} {key : NodeKey} :
    f.draining key = false ↔ key ∉ f.drains := by
  simp [Fleet.draining]

theorem retired_false {f : Fleet} {key : NodeKey} :
    f.retired key = false ↔ f.retirements.lookup key = none := by
  simp [Fleet.retired]

section Kept
variable {locked : Bool} {allow : Fleet → Job → Prop} {db next : Db} {es : List Event}

/-- A node after a change was there before, or its key is not retired; a draining node
is enabled only by a job that is still open. -/
structure NodeFrom (db : Db) (key : NodeKey) (n : Node) : Prop where
  known : (∃ m, db.fleet.nodes.lookup key = some m) ∨ db.fleet.retired key = false
  enabled : n.enabled = true → ∃ m, db.fleet.nodes.lookup key = some m ∧
    (m.enabled = true ∨ key ∉ db.fleet.drains ∨
      ∃ j ∈ db.fleet.jobs, j.node = key ∧ j.status.pending = true)

theorem NodeFrom.kept {key : NodeKey} {m n : Node} (row : db.fleet.nodes.lookup key = some m)
    (enabled : n.enabled = true → m.enabled = true) : NodeFrom db key n :=
  ⟨.inl ⟨m, row⟩, fun on => ⟨m, row, .inl (enabled on)⟩⟩

/-- A table in which only the row of `key` has changed. -/
theorem NodeFrom.at_key {nodes : Table NodeKey Node} {key k : NodeKey} {f : Node → Node}
    {n : Node}
    (shape : nodes.lookup k =
      if k = key then (db.fleet.nodes.lookup key).map f else db.fleet.nodes.lookup k)
    (changed : ∀ m, db.fleet.nodes.lookup key = some m → NodeFrom db key (f m))
    (row : nodes.lookup k = some n) : NodeFrom db k n := by
  rw [shape] at row
  split at row
  · next same =>
    obtain ⟨m, found, rfl⟩ := Option.map_eq_some_iff.mp row
    rw [same]
    exact changed m found
  · exact NodeFrom.kept row fun h => h

theorem FleetChange.node_from {f : Fleet} (change : FleetChange locked allow db es f)
    {key : NodeKey} {n : Node} (row : f.nodes.lookup key = some n) : NodeFrom db key n := by
  cases change with
  | @writeSettings s r settings held member sent valid =>
    refine NodeFrom.at_key (NodeSettingsExecutor.lookup_applied db.fleet s settings r.awgPort key)
      (fun m found => ⟨.inl ⟨m, found⟩, fun on => ⟨m, found, ?_⟩⟩) row
    by_cases open_ : db.fleet.draining s.node = false
    · exact .inr (.inl (draining_false.mp open_))
    · dsimp only [NodeSettingsExecutor.appliedNode] at on
      rw [if_neg fun h => open_ h.2.2, NodeSettings.ported_enabled] at on
      exact .inl on
  | @finishJob j r settings installations held member sent allowed action valid =>
    exact NodeFrom.at_key (NodeOperations.lookup_completed db.fleet j settings r.awgPort key)
      (fun m found => ⟨.inl ⟨m, found⟩, fun _ =>
        ⟨m, found, .inr (.inr ⟨j, member, rfl, Status.pending_of_held sent⟩)⟩⟩) row
  | @create fresh protocols transports settings draw unused unfenced =>
    dsimp only at row
    rw [Table.lookup_put] at row
    split at row
    · next same =>
      cases row
      exact ⟨.inr (same ▸ unfenced), fun on => by cases on⟩
    · exact NodeFrom.kept row fun h => h
  | @edit edited node protocols transports settings draws found jobs valid =>
    dsimp only at row
    rw [Table.lookup_put] at row
    split at row
    · next same =>
      cases row
      exact NodeFrom.kept (m := node) (same ▸ found) fun h => h
    · exact NodeFrom.kept row fun h => h
  | policies scope value =>
    simp only [VpnPolicies.change, VpnPolicies.markNodes, Table.lookup_mapRows] at row
    obtain ⟨m, found, rfl⟩ := Option.map_eq_some_iff.mp row
    refine NodeFrom.kept found fun on => ?_
    split at on <;> exact on
  | repair =>
    simp only [NodeOperations.repairRemovedRuntimeState, Table.lookup_mapRows] at row
    obtain ⟨m, found, rfl⟩ := Option.map_eq_some_iff.mp row
    refine NodeFrom.kept found fun on => ?_
    split at on <;> exact on
  | disable closed =>
    exact NodeFrom.at_key (Table.lookup_alter _ _ _ _)
      (fun m found => NodeFrom.kept found fun on => by cases on) row
  | remove mode held known draining =>
    exact NodeFrom.kept (Table.lookup_keep.mp row).1 fun h => h
  | advance raised revision =>
    refine NodeFrom.at_key (Table.lookup_alter db.fleet.nodes raised key _) ?_ row
    exact fun m found => NodeFrom.kept found fun on => on
  | _ => exact NodeFrom.kept row fun h => h

theorem Enqueue.node_from {f : Fleet} (queued : Enqueue locked db f) {key : NodeKey} {n : Node}
    (row : f.nodes.lookup key = some n) : NodeFrom db key n := by
  cases queued with
  | queueSettings => exact NodeFrom.kept row fun h => h
  | replaceSettings removed held member blocked found open_ others taken =>
    dsimp only at row
    rw [Table.lookup_put] at row
    split at row
    · next same =>
      cases row
      exact NodeFrom.kept (same ▸ found) fun on => by cases on
    · exact NodeFrom.kept row fun h => h
  | queueJob found open_ jobs settings tasks clean taken =>
    dsimp only at row
    split at row
    · rw [Table.lookup_put] at row
      split at row
      · next same =>
        cases row
        exact NodeFrom.kept (same ▸ found) fun on => by cases on
      · exact NodeFrom.kept row fun h => h
    · exact NodeFrom.kept row fun h => h

/-! The fences. -/

structure Fenced (db : Db) : Prop where
  disabled : ∀ key ∈ db.fleet.drains, ∀ n, db.fleet.nodes.lookup key = some n →
    n.enabled = false
  jobs : ∀ j ∈ db.fleet.jobs, j.node ∈ db.fleet.drains → j.status.pending = false
  revoked : ∀ key ∈ db.fleet.drains, Revoked db.outbox.tasks key
  cleanups : ∀ key ∈ db.fleet.cleanups, key ∈ db.fleet.drains
  retired : ∀ key, db.fleet.retired key = true →
    db.fleet.nodes.lookup key = none ∧ Revoked db.outbox.tasks key

/-- A new task is for a node without a fence, and an ensure for an enabled node. -/
theorem Recorded.open_ {u : Task} (recorded : Recorded db next u) :
    u.row.node ∉ db.fleet.cleanups ∧ db.fleet.retired u.row.node = false ∧
      (u.row.action = .ensure →
        ∃ n, db.fleet.nodes.lookup u.row.node = some n ∧ n.enabled = true) := by
  obtain ⟨now, actor, profile, previous, scope, rfl, _, new⟩ := recorded
  obtain ⟨row, target, peer, found, chosen, _, _, _, _, _, node, _, _, act⟩ :=
    OperationRepository.created_task new
  have prepared := OperationRepository.prepare_prepares db profile
  obtain ⟨_, _, free⟩ := OperationRepository.mem_selected.mp chosen
  simp only [OperationRepository.actionable, prepared.fleet, Bool.and_eq_true,
    Bool.not_eq_true'] at free
  obtain ⟨⟨_, clean⟩, live⟩ := free
  rw [node]
  refine ⟨by simpa using clean, by simpa [Fleet.retired] using live, fun ensure => ?_⟩
  rw [act] at ensure
  split at ensure
  · rw [OperationRepository.action_prepare] at ensure
    unfold OperationRepository.action at ensure
    split at ensure
    · next entitled =>
      have on := entitled.2.1
      cases row : db.fleet.nodes.lookup target.1 with
      | none =>
        rw [row] at on
        cases on
      | some n =>
        rw [row] at on
        exact ⟨n, rfl, on⟩
    · cases ensure
  · cases ensure

/-- `Revoked` for one profile. -/
def RevokedFor (tasks : List Task) (node : NodeKey) (profile : Uuid) : Prop :=
  ∀ t ∈ tasks, t.row.profile = profile → t.row.node = node → t.row.action = .ensure →
    ∃ u ∈ tasks, u.row.profile = t.row.profile ∧ u.row.node = t.row.node ∧
      u.row.protocol = t.row.protocol ∧ u.row.device = t.row.device ∧
      u.row.action = .delete ∧ t.row.revision < u.row.revision

theorem revoked_iff {tasks : List Task} {node : NodeKey} :
    Revoked tasks node ↔ ∀ profile, RevokedFor tasks node profile :=
  ⟨fun h _ t listed _ => h t listed, fun h t listed => h t.row.profile t listed rfl⟩

/-- A node whose ensures are all behind deletes stays so while it gets no ensure. -/
theorem RevokedFor.step {key : NodeKey} {profile : Uuid}
    (revoked : RevokedFor db.outbox.tasks key profile)
    (numbered : Numbered db) (change : Change locked allow db es next)
    (closed : ∀ n, db.fleet.nodes.lookup key = some n → n.enabled = false) :
    RevokedFor next.outbox.tasks key profile := by
  intro u listed owned node ensure
  rcases change.task_from numbered listed with ⟨t, old, step⟩ | recorded
  · rw [step.row] at owned node ensure
    obtain ⟨w, older, owner, place, protocol, device, delete, later⟩ :=
      revoked t old owned node ensure
    obtain ⟨v, kept, moved⟩ := change.task_to numbered older
    refine ⟨v, kept, ?_⟩
    rw [moved.row, step.row]
    exact ⟨owner, place, protocol, device, delete, later⟩
  · obtain ⟨n, found, on⟩ := recorded.open_.2.2 ensure
    rw [closed n (node ▸ found)] at on
    cases on

theorem Revoked.step {key : NodeKey} (revoked : Revoked db.outbox.tasks key)
    (numbered : Numbered db) (change : Change locked allow db es next)
    (closed : ∀ n, db.fleet.nodes.lookup key = some n → n.enabled = false) :
    Revoked next.outbox.tasks key :=
  revoked_iff.mpr fun profile =>
    (revoked_iff.mp revoked profile).step numbered change closed

theorem Fenced.of_nodes {f : Fleet} (fenced : Fenced db) (numbered : Numbered db)
    (change : Change locked allow db es next) (fleet : next.fleet = f)
    (drains : f.drains = db.fleet.drains)
    (cleanups : f.cleanups = db.fleet.cleanups)
    (retirements : f.retirements = db.fleet.retirements)
    (nodes : ∀ key n, f.nodes.lookup key = some n → NodeFrom db key n)
    (jobs : ∀ k ∈ f.jobs, k.status.pending = true → k.node ∈ db.fleet.drains →
      ∃ j ∈ db.fleet.jobs, j.node = k.node ∧ j.status.pending = true) : Fenced next where
  disabled := by
    intro key member n row
    rw [fleet] at member row
    rw [drains] at member
    by_contra on
    obtain ⟨m, found, was | out | ⟨j, listed, same, open_⟩⟩ :=
      (nodes key n row).enabled (by simpa using on)
    · rw [fenced.disabled key member m found] at was
      cases was
    · exact out member
    · rw [fenced.jobs j listed (same ▸ member)] at open_
      cases open_
  jobs := by
    intro k listed member
    rw [fleet] at listed member
    rw [drains] at member
    by_contra open_
    obtain ⟨j, old, same, was⟩ := jobs k listed (by simpa using open_) member
    rw [fenced.jobs j old (same ▸ member)] at was
    cases was
  revoked := by
    intro key member
    rw [fleet, drains] at member
    exact (fenced.revoked key member).step numbered change (fenced.disabled key member)
  cleanups := by
    rw [fleet, drains, cleanups]
    exact fenced.cleanups
  retired := by
    intro key gone
    rw [fleet] at gone ⊢
    have was : db.fleet.retired key = true := by
      rw [Fleet.retired, retirements] at gone
      exact gone
    obtain ⟨unknown, revoked⟩ := fenced.retired key was
    refine ⟨?_, revoked.step numbered change fun n found => by rw [unknown] at found; cases found⟩
    cases row : f.nodes.lookup key with
    | none => rfl
    | some n =>
      rcases (nodes key n row).known with ⟨m, found⟩ | live
      · rw [unknown] at found
        cases found
      · rw [was] at live
        cases live

theorem Enqueue.job_from {f : Fleet} (queued : Enqueue locked db f) {k : Job}
    (listed : k ∈ f.jobs) (draining : k.node ∈ db.fleet.drains) : k ∈ db.fleet.jobs := by
  cases queued with
  | queueSettings => exact listed
  | replaceSettings => exact listed
  | queueJob found open_ jobs settings tasks clean taken =>
    rcases List.mem_append.mp listed with old | new
    · exact old
    · rw [List.mem_singleton.mp new] at draining
      exact absurd draining (draining_false.mp open_)

theorem Fenced.step (fenced : Fenced db) (numbered : Numbered db)
    (change : Change locked allow db es next) : Fenced next := by
  have whole := change
  cases change with
  | enqueue queued =>
    refine fenced.of_nodes numbered whole rfl ?_ ?_ ?_ (fun key n row => queued.node_from row)
      (fun k listed open_ member => ⟨k, queued.job_from listed member, rfl, open_⟩)
    all_goals cases queued <;> rfl
  | @fleet events f change =>
    have jobs : ∀ k ∈ f.jobs, k.status.pending = true → k.node ∈ db.fleet.drains →
        ∃ j ∈ db.fleet.jobs, j.node = k.node ∧ j.status.pending = true := by
      obtain ⟨g, shape, moved⟩ := change.job_map numbered
      intro k listed open_ _
      rw [shape] at listed
      obtain ⟨j, old, rfl⟩ := List.mem_map.mp listed
      exact ⟨j, old, by rw [(moved j old).shape], (moved j old).pending open_⟩
    have nodes : ∀ key n, f.nodes.lookup key = some n → NodeFrom db key n :=
      fun key n row => change.node_from row
    cases change with
    | @drain key held row disabled clear settings revoked =>
      refine ⟨?_, ?_, ?_, ?_, fenced.retired⟩
      · intro k member n found
        rcases List.mem_cons.mp member with rfl | old
        · exact disabled n found
        · exact fenced.disabled k old n found
      · intro j listed member
        rcases List.mem_cons.mp member with same | old
        · exact jobPending_false.mp clear j listed same
        · exact fenced.jobs j listed old
      · intro k member
        rcases List.mem_cons.mp member with rfl | old
        · exact revoked
        · exact fenced.revoked k old
      · exact fun k member => List.mem_cons_of_mem _ (fenced.cleanups k member)
    | @cleanup key held draining =>
      refine ⟨fenced.disabled, fenced.jobs, fenced.revoked, ?_, fenced.retired⟩
      intro k member
      rcases List.mem_cons.mp member with rfl | old
      · exact draining_iff.mp draining
      · exact fenced.cleanups k old
    | @remove key mode held row draining =>
      have old : ∀ k, k ∈ db.fleet.drains.filter (· ≠ key) → k ∈ db.fleet.drains :=
        fun k member => (List.mem_filter.mp member).1
      refine ⟨?_, ?_, ?_, ?_, ?_⟩
      · exact fun k member n found =>
          fenced.disabled k (old k member) n (Table.lookup_keep.mp found).1
      · exact fun j listed member => fenced.jobs j listed (old _ member)
      · exact fun k member => fenced.revoked k (old k member)
      · intro k member
        obtain ⟨was, other⟩ := List.mem_filter.mp member
        exact List.mem_filter.mpr ⟨fenced.cleanups k was, other⟩
      · intro k gone
        by_cases same : k = key
        · subst same
          refine ⟨?_, fenced.revoked k (draining_iff.mp draining)⟩
          cases found : (NodeLifecycle.remove db.fleet k mode).nodes.lookup k with
          | none => rfl
          | some n => simpa using (Table.lookup_keep.mp found).2
        · have was : db.fleet.retired k = true := by
            simpa [Fleet.retired, NodeLifecycle.remove, Table.lookup_put_ne, same] using gone
          obtain ⟨unknown, revoked⟩ := fenced.retired k was
          refine ⟨?_, revoked⟩
          cases found : (NodeLifecycle.remove db.fleet key mode).nodes.lookup k with
          | none => rfl
          | some n =>
            have before := (Table.lookup_keep.mp found).1
            rw [unknown] at before
            cases before
    | _ => exact fenced.of_nodes numbered whole rfl rfl rfl rfl nodes jobs
  | record now actor profile previous scope behind covers =>
    have fleet := (OperationRepository.record_frame db now actor profile previous scope).1
    exact fenced.of_nodes numbered whole fleet rfl rfl rfl
      (fun key n row => NodeFrom.kept row fun h => h)
      (fun k listed open_ _ => ⟨k, listed, rfl, open_⟩)
  | _ =>
    exact fenced.of_nodes numbered whole rfl rfl rfl rfl
      (fun key n row => NodeFrom.kept row fun h => h)
      (fun k listed open_ _ => ⟨k, listed, rfl, open_⟩)

/-- A verified retirement stays verified. -/
theorem Fenced.verified (fenced : Fenced db) (change : Change locked allow db es next) :
    VerifiedKept db next := by
  intro node checked
  cases change with
  | record now actor profile previous scope behind covers =>
    rw [DeviceRepository.verified,
      (OperationRepository.record_frame db now actor profile previous scope).1]
    exact checked
  | enqueue queued => cases queued <;> exact checked
  | fleet change =>
    cases change with
    | @remove key mode held row draining =>
      have other : node ≠ key := by
        rintro rfl
        have gone : db.fleet.retired node = true := by
          simp only [DeviceRepository.verified, decide_eq_true_eq] at checked
          rw [Fleet.retired, checked]
          rfl
        rw [(fenced.retired node gone).1] at row
        cases row
      simpa [DeviceRepository.verified, NodeLifecycle.remove, Table.lookup_put_ne, other]
        using checked
    | _ => exact checked
  | _ => exact checked

end Kept
end Controller
end NodePlane
