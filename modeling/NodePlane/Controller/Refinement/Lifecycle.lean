import NodePlane.Controller.Refinement.Worker

/-! Draining a node revokes every target it has known; retirement follows a drain. -/
namespace NodePlane
namespace Controller
open Library OperationRepository

section Runs
variable {allow : Fleet → Job → Prop} {db : Db}

/-- A node that takes no more work, and whose host has not been given up. -/
structure ClosedNode (f : Fleet) (node : NodeKey) : Prop where
  row : (f.nodes.lookup node).isSome = true
  disabled : ∀ n, f.nodes.lookup node = some n → n.enabled = false
  jobs : f.jobPending node = false
  settings : f.settingsPending node = false
  clean : node ∉ f.cleanups
  live : f.retired node = false

theorem drainProfile_fleet (now : Time) (actor : Uuid) (node : NodeKey) (db : Db)
    (profile : Uuid) :
    (NodeLifecycle.drainProfile now actor node db profile).fleet = db.fleet :=
  record_fleet _ now actor profile _ none

theorem Reaches.drainProfile {locked : Bool} (now : Time) (actor : Uuid) (node : NodeKey)
    (profile : Uuid) :
    Reaches locked allow db [] (NodeLifecycle.drainProfile now actor node db profile) := by
  refine after ?_ (renewAll now actor profile ?_)
  · exact quiet rfl rfl rfl rfl
  · rfl

/-- Draining one profile: its ensures for the node get deletes, the node gets no new
ensure, and what was revoked stays so. -/
theorem drainProfile_revokes (sound : Sound db) {node : NodeKey} (closed : ClosedNode db.fleet node)
    (now : Time) (actor profile : Uuid) :
    (∀ q, RevokedFor db.outbox.tasks node q → RevokedFor
      (NodeLifecycle.drainProfile now actor node db profile).outbox.tasks node q) ∧
    (∀ u ∈ (NodeLifecycle.drainProfile now actor node db profile).outbox.tasks,
      u.row.node = node → u.row.action = .ensure → u ∈ db.outbox.tasks) ∧
    RevokedFor (NodeLifecycle.drainProfile now actor node db profile).outbox.tasks node
      profile := by
  let mid := OperationRepository.bump { db with
    access.grants := db.access.grants.filter fun g => !(g.profile = profile && g.node = node) }
    profile
  have ran : Reaches true (fun _ _ => True) db [] mid := by
    refine Reaches.after ?_ (Reaches.bump profile)
    exact Reaches.quiet rfl rfl rfl rfl
  have middle : Sound mid := sound.steps (ran sound)
  have ahead : ∀ t ∈ mid.outbox.tasks, ∀ p, t.row.profile = profile →
      mid.access.profiles.lookup profile = some p → t.row.revision < p.desiredRevision :=
    fun t listed p owner found => behind_bump sound.revisions listed owner found
  have covers : ∀ t ∈ mid.outbox.tasks, t.row.profile = profile →
      (none : Option (List Target)).all (·.contains (t.row.node, t.row.protocol)) = true →
      (t.row.node, t.row.protocol) ∈ targets db profile :=
    fun t listed owner _ => mem_targets listed owner
  have change : Change true (fun _ _ => True) mid []
      (NodeLifecycle.drainProfile now actor node db profile) :=
    .record now actor profile (targets db profile) none ahead covers
  have tasks : (NodeLifecycle.drainProfile now actor node db profile).outbox.tasks =
      db.outbox.tasks ++ created mid now actor profile (targets db profile) none :=
    record_tasks mid now actor profile (targets db profile) none
  have old : ∀ u ∈ (NodeLifecycle.drainProfile now actor node db profile).outbox.tasks,
      u.row.node = node → u.row.action = .ensure → u ∈ db.outbox.tasks := by
    intro u listed place ensure
    rw [tasks] at listed
    rcases List.mem_append.mp listed with was | new
    · exact was
    · have recorded : Recorded mid (NodeLifecycle.drainProfile now actor node db profile) u :=
        ⟨now, actor, profile, _, none, rfl, ahead, new⟩
      obtain ⟨n, found, on⟩ := recorded.open_.2.2 ensure
      rw [closed.disabled n (place ▸ found)] at on
      cases on
  have kept : ∀ q, RevokedFor mid.outbox.tasks node q → RevokedFor
      (NodeLifecycle.drainProfile now actor node db profile).outbox.tasks node q :=
    fun q revoked => revoked.step middle.numbered change closed.disabled
  refine ⟨kept, old, ?_⟩
  intro t listed owner place ensure
  have was := old t listed place ensure
  obtain ⟨row, found, _⟩ := middle.revisions t was
  rw [owner] at found
  have known := middle.known t was
  have remembered : ¬Forgotten mid profile t.row.device := by
    intro forgotten
    rcases known with ⟨d, device, _⟩ | ⟨_, delete, _⟩
    · rw [forgotten.device] at device
      cases device
    · rw [ensure] at delete
      cases delete
  have refused : ¬Entitled mid now profile (t.row.node, t.row.protocol) t.row.device := by
    intro entitled
    obtain ⟨n, there, on⟩ := entitled.node
    rw [closed.disabled n (place ▸ there)] at on
    cases on
  obtain ⟨u, new, ⟨owns, node_, protocol, device⟩, revision, delete⟩ :=
    created_deletes now actor middle.owned found covers was known owner rfl
      (place ▸ closed.clean) (place ▸ closed.live) remembered refused
  refine ⟨u, by rw [tasks]; exact List.mem_append_right _ new, owns.trans owner.symm, node_,
    protocol, device, delete, ?_⟩
  rw [revision]
  exact ahead t was row owner found

theorem drainAll {node : NodeKey} (now : Time) (actor : Uuid) (profiles : List Uuid)
    (sound : Sound db) (closed : ClosedNode db.fleet node) :
    (profiles.foldl (NodeLifecycle.drainProfile now actor node) db).fleet = db.fleet ∧
    (∀ q, RevokedFor db.outbox.tasks node q → RevokedFor
      (profiles.foldl (NodeLifecycle.drainProfile now actor node) db).outbox.tasks node q) ∧
    (∀ u ∈ (profiles.foldl (NodeLifecycle.drainProfile now actor node) db).outbox.tasks,
      u.row.node = node → u.row.action = .ensure → u ∈ db.outbox.tasks) ∧
    ∀ p ∈ profiles, RevokedFor
      (profiles.foldl (NodeLifecycle.drainProfile now actor node) db).outbox.tasks node p := by
  induction profiles generalizing db with
  | nil => exact ⟨rfl, fun _ h => h, fun _ h _ _ => h, by simp⟩
  | cons p rest ih =>
    have one := drainProfile_revokes sound closed now actor p
    have fleet := drainProfile_fleet now actor node db p
    have ran : Reaches true (fun _ _ => True) db []
        (NodeLifecycle.drainProfile now actor node db p) :=
      Reaches.drainProfile now actor node p
    have next := sound.steps (ran sound)
    obtain ⟨same, kept, old, revoked⟩ := ih next (fleet ▸ closed)
    refine ⟨same.trans fleet, fun q h => kept q (one.1 q h), ?_, ?_⟩
    · exact fun u listed place ensure => one.2.1 u (old u listed place ensure) place ensure
    · intro q member
      rcases List.mem_cons.mp member with rfl | later
      · exact kept q one.2.2
      · exact revoked q later

/-- Every task for the node belongs to a profile that the drain names. -/
theorem mem_affected {node : NodeKey} {t : Task} (listed : t ∈ db.outbox.tasks)
    (place : t.row.node = node) : t.row.profile ∈ NodeLifecycle.affected db node := by
  refine List.mem_dedup.mpr (List.mem_append_right _ (List.mem_map.mpr ⟨t, ?_, rfl⟩))
  exact List.mem_filter.mpr ⟨listed, by simpa using place⟩

theorem revoked_drained {node : NodeKey} (now : Time) (actor : Uuid) (sound : Sound db)
    (closed : ClosedNode db.fleet node) :
    Revoked ((NodeLifecycle.affected db node).foldl
      (NodeLifecycle.drainProfile now actor node) db).outbox.tasks node := by
  obtain ⟨_, _, old, revoked⟩ :=
    drainAll now actor (NodeLifecycle.affected db node) sound closed
  intro t listed place ensure
  exact revoked _ (mem_affected (old t listed place ensure) place) t listed rfl place ensure

/-! Closing the queues of a node. -/

theorem given_pending {node key : NodeKey} {abandon : Bool} {status : Status}
    (given : NodeLifecycle.given node abandon key status = true) : status.pending = true := by
  unfold NodeLifecycle.given at given
  cases abandon
  · simp only [Bool.and_eq_true, decide_eq_true_eq] at given
    rw [if_neg Bool.false_ne_true] at given
    rw [show status = .awaitingExecutor by simpa using given.2]
    rfl
  · simpa using (Bool.and_eq_true _ _ ▸ given : _ ∧ _).2

theorem Reaches.closeSettings (node : NodeKey) (abandon : Bool) :
    Reaches true allow db [] { db with
      fleet := NodeService.supersedeSettings db.fleet fun s =>
        NodeLifecycle.given node abandon s.node s.status } :=
  supersedeSettings fun _ _ chosen => settles_superseded (given_pending chosen)

theorem Reaches.closeQueues (node : NodeKey) (abandon : Bool) :
    Reaches true allow db []
      { db with fleet := NodeLifecycle.closeQueues db.fleet node abandon } := by
  let given (key : NodeKey) (status : Status) := NodeLifecycle.given node abandon key status
  have jobs : Reaches true allow db [] { db with
      fleet := NodeOperations.setStatus db.fleet (fun j => given j.node j.status) .superseded } :=
    setJobs fun j _ chosen => settles_superseded (given_pending chosen)
  have settings := jobs.after (closeSettings node abandon)
  exact settings.after (fleet fun _ => .disable node)

theorem closed_jobs {f : Fleet} {node : NodeKey} {abandon : Bool}
    (free : abandon = true ∨ f.jobHeld node = false) :
    (NodeLifecycle.closeQueues f node abandon).jobPending node = false := by
  rw [jobPending_false]
  intro k listed same
  obtain ⟨j, old, rfl⟩ := List.mem_map.mp listed
  by_contra open_
  split at open_
  · exact open_ rfl
  · next kept =>
    split at same
    · next given => exact kept given
    · rcases free with rfl | idle
      · exact kept (by simpa [NodeLifecycle.given, same] using open_)
      · rcases (Status.pending_iff j.status).mp (by simpa using open_) with queued | held
        · exact kept (by cases abandon <;> simp [NodeLifecycle.given, same, queued, Status.pending])
        · have clear := List.any_eq_false.mp idle j old
          simp [same, held] at clear

theorem closed_settings {f : Fleet} {node : NodeKey} {abandon : Bool}
    (free : abandon = true ∨ f.settingsHeld node = false) :
    (NodeLifecycle.closeQueues f node abandon).settingsPending node = false := by
  rw [settingsPending_false]
  intro k listed same
  obtain ⟨s, old, rfl⟩ := List.mem_map.mp listed
  by_contra open_
  split at open_
  · exact open_ rfl
  · next kept =>
    split at same
    · next given => exact kept given
    · rcases free with rfl | idle
      · exact kept (by simpa [NodeLifecycle.given, same] using open_)
      · rcases (Status.pending_iff s.status).mp (by simpa using open_) with queued | held
        · exact kept (by cases abandon <;> simp [NodeLifecycle.given, same, queued, Status.pending])
        · have clear := List.any_eq_false.mp idle s old
          simp [same, held] at clear

theorem closed_nodes (f : Fleet) (node : NodeKey) (abandon : Bool) :
    (NodeLifecycle.closeQueues f node abandon).nodes =
      f.nodes.alter node fun n => { n with enabled := false } := rfl

theorem closed_node (sound : Sound db) {node : NodeKey} {n : Node} {abandon : Bool}
    (row : db.fleet.nodes.lookup node = some n) (open_ : db.fleet.draining node = false)
    (jobs : abandon = true ∨ db.fleet.jobHeld node = false)
    (settings : abandon = true ∨ db.fleet.settingsHeld node = false)
    (bootstraps : List Bootstrap) :
    ClosedNode { NodeLifecycle.closeQueues db.fleet node abandon with bootstraps := bootstraps }
      node where
  row := by
    simp only [closed_nodes, Table.lookup_alter, if_pos, row]
    rfl
  disabled := by
    intro m found
    simp only [closed_nodes, Table.lookup_alter, if_pos, row, Option.map_some,
      Option.some.injEq] at found
    rw [← found]
  jobs := closed_jobs jobs
  settings := closed_settings settings
  clean := fun cleaning => draining_false.mp open_ (sound.fenced.cleanups node cleaning)
  live := by
    cases gone : db.fleet.retired node with
    | false => exact gone
    | true =>
      rw [(sound.fenced.retired node gone).1] at row
      cases row

namespace Reaches

/-- A drain, with the fence on its revocations. -/
theorem startDrain {now : Time} {actor : Uuid} {node : NodeKey} {abandon : Bool} {next : Db}
    (done : NodeLifecycle.startDrain db now actor node abandon = .ok next) :
    Reaches true allow db [] next := by
  simp only [NodeLifecycle.startDrain, need_ok] at done
  obtain ⟨n, row, rest⟩ := done
  split at rest
  · cases rest
    exact refl db
  · next open_ =>
    simp only [deny_ok, Bool.and_eq_false_iff, Bool.not_eq_false'] at rest
    obtain ⟨_, settings, jobs, ended⟩ := rest
    cases ended
    intro sound
    let f : Fleet := { NodeLifecycle.closeQueues db.fleet node abandon with
      bootstraps := if abandon then NodeLifecycle.closeBootstraps db.fleet node
        else db.fleet.bootstraps }
    have shut : Reaches true allow db [] { db with fleet := f } :=
      (closeQueues node abandon).after (notes _ _)
    have middle : Sound { db with fleet := f } := sound.steps (shut sound)
    have closed : ClosedNode f node :=
      closed_node sound row (by simpa using open_) jobs settings _
    have drained := drainAll now actor (NodeLifecycle.affected { db with fleet := f } node)
      middle closed
    have revoked := revoked_drained now actor middle closed
    have all : Reaches true allow { db with fleet := f } []
        ((NodeLifecycle.affected { db with fleet := f } node).foldl
          (NodeLifecycle.drainProfile now actor node) { db with fleet := f }) :=
      foldl (fun _ profile _ => drainProfile now actor node profile) _
    refine (shut.after (all.after (fleet fun _ => ?_))) sound
    exact .drain rfl (by rw [drained.1]; exact closed.row) (by rw [drained.1]; exact closed.disabled)
      (by rw [drained.1]; exact closed.jobs) (by rw [drained.1]; exact closed.settings) revoked

theorem startDrain_drains {now : Time} {actor : Uuid} {node : NodeKey} {abandon : Bool} {next : Db}
    (done : NodeLifecycle.startDrain db now actor node abandon = .ok next) :
    node ∈ next.fleet.drains := by
  simp only [NodeLifecycle.startDrain, need_ok] at done
  obtain ⟨n, row, rest⟩ := done
  split at rest
  · next open_ =>
    cases rest
    exact draining_iff.mp open_
  · simp only [deny_ok] at rest
    obtain ⟨_, _, _, ended⟩ := rest
    cases ended
    exact List.mem_cons_self ..

theorem startCleanup {node : NodeKey} {next : Db}
    (done : NodeLifecycle.startCleanup db node = .ok next) : Reaches true allow db [] next := by
  simp only [NodeLifecycle.startCleanup, deny_ok, Bool.or_eq_false_iff, Bool.not_eq_false'] at done
  obtain ⟨⟨_, draining⟩, complete, ended⟩ := done
  cases ended
  split
  · exact refl db
  · exact fleet fun _ => .cleanup rfl draining complete

theorem retireVerified {node : NodeKey} {next : Db}
    (done : NodeLifecycle.retireVerified db node = .ok next) : Reaches true allow db [] next := by
  simp only [NodeLifecycle.retireVerified, need_ok, deny_ok, Bool.not_eq_false'] at done
  obtain ⟨n, row, cleaning, _, ended⟩ := done
  cases ended
  refine fleet fun sound => .remove .verified rfl (by rw [row]; rfl) (draining_iff.mpr ?_)
  exact sound.fenced.cleanups node (by simpa using cleaning)

theorem refreshOperation_fleet (db : Db) (id : Uuid) :
    (IntentExecutor.refreshOperation db id).fleet = db.fleet := rfl

theorem refreshAll_fleet (ids : List Uuid) (db : Db) :
    (ids.foldl IntentExecutor.refreshOperation db).fleet = db.fleet :=
  foldl_fleet (fun db id => refreshOperation_fleet db id) ids db

theorem retireRegistryOnly {node : NodeKey} {next : Db} (draining : db.fleet.draining node = true)
    (done : NodeLifecycle.retireRegistryOnly db node = .ok next) :
    Reaches true allow db [] next := by
  simp only [NodeLifecycle.retireRegistryOnly, admitted_ok, need_ok] at done
  obtain ⟨_, _, n, row, ended⟩ := done
  cases ended
  refine after ?_ (fleet fun _ => .remove .registryOnly rfl ?_ ?_)
  · refine after ?_ (refreshAll _)
    refine after (closeQueues node true) (mark fun t _ chosen => ?_)
    simp only [Bool.and_eq_true, decide_eq_true_eq] at chosen
    exact settles_superseded chosen.2
  · rw [refreshAll_fleet]
    simp only [OperationRepository.mark, closed_nodes, Table.lookup_alter, if_pos, row]
    rfl
  · rw [refreshAll_fleet]
    exact draining

end Reaches
end Runs
end Controller
end NodePlane
