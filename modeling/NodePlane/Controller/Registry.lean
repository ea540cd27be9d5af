import NodePlane.Controller.Rows

/-! What the task history of a profile and of a node says: revisions lie behind the
profile's, every target still has its peer, and a drained node is revoked. -/
namespace NodePlane
namespace Controller
open Library

section Kept
variable {locked : Bool} {allow : Fleet → Job → Prop} {db next : Db} {es : List Event}

/-! Rows that are kept. -/

theorem Change.profiles_grow (change : Change locked allow db es next) :
    db.access.profiles.Grows (fun p q => p.desiredRevision ≤ q.desiredRevision)
      next.access.profiles := by
  have same : db.access.profiles.Grows (fun p q => p.desiredRevision ≤ q.desiredRevision)
      db.access.profiles :=
    fun _ p found => ⟨p, found, Nat.le_refl _⟩
  cases change with
  | access grows => exact grows.profiles
  | record now actor profile previous scope behind covers =>
    rw [(OperationRepository.record_frame db now actor profile previous scope).2.2.2.1]
    exact same
  | _ => exact same

theorem Device.Le.refl (d : Device) : d.Le d := ⟨rfl, fun h => h⟩

theorem Change.devices_grow (change : Change locked allow db es next) :
    db.access.devices.Grows Device.Le next.access.devices := by
  have same : db.access.devices.Grows Device.Le db.access.devices :=
    Table.Grows.refl Device.Le.refl _
  cases change with
  | access grows => exact grows.devices
  | record now actor profile previous scope behind covers =>
    rw [(OperationRepository.record_frame db now actor profile previous scope).2.2.1]
    exact same
  | _ => exact same

theorem Change.credentials_kept (change : Change locked allow db es next) (id : Uuid)
    (known : (db.access.credentials.lookup id).isSome = true) :
    (next.access.credentials.lookup id).isSome = true := by
  cases change with
  | access grows => exact grows.credentials id known
  | record now actor profile previous scope behind covers =>
    exact OperationRepository.record_credentials db now actor profile previous scope id known
  | _ => exact known

theorem Change.later (change : Change locked allow db es next) : db.fresh ≤ next.fresh := by
  cases change with
  | access grows => exact grows.later
  | record now actor profile previous scope behind covers =>
    exact OperationRepository.record_later db now actor profile previous scope
  | enqueue queued => exact Nat.le_succ _
  | _ => exact Nat.le_refl _

/-- An identity that was drawn without a device never gets one. -/
theorem Change.no_device (change : Change locked allow db es next) {id : Uuid}
    (drawn : id < db.fresh) (none_ : db.access.devices.lookup id = none) :
    next.access.devices.lookup id = none := by
  cases change with
  | @access a operations fresh grows =>
    cases known : a.devices.lookup id with
    | none => rfl
    | some d =>
      rcases grows.newDevices id d known with found | new
      · simp [none_] at found
      · exact absurd drawn (Nat.not_lt.mpr new.1)
  | record now actor profile previous scope behind covers =>
    rw [(OperationRepository.record_frame db now actor profile previous scope).2.2.1]
    exact none_
  | _ => exact none_

theorem Change.no_slot (change : Change locked allow db es next) {slot : Uuid}
    (drawn : slot < db.fresh) (none_ : db.access.retiredPeers.lookup slot = none) :
    next.access.retiredPeers.lookup slot = none := by
  cases change with
  | @access a operations fresh grows =>
    cases known : a.retiredPeers.lookup slot with
    | none => rfl
    | some r =>
      rcases grows.newSlots slot r known with found | new
      · simp [none_] at found
      · exact absurd drawn (Nat.not_lt.mpr new.1)
  | record now actor profile previous scope behind covers =>
    rw [(OperationRepository.record_frame db now actor profile previous scope).2.2.2.2.2.2]
    exact none_
  | _ => exact none_

/-! Revisions. -/

/-- Every task lies at or behind the revision of its profile. -/
def Revisions (db : Db) : Prop :=
  ∀ t ∈ db.outbox.tasks, ∃ p, db.access.profiles.lookup t.row.profile = some p ∧
    t.row.revision ≤ p.desiredRevision

theorem Revisions.step (revisions : Revisions db) (numbered : Numbered db)
    (change : Change locked allow db es next) : Revisions next := by
  intro u listed
  rcases change.task_from numbered listed with ⟨t, old, step⟩ | recorded
  · obtain ⟨p, found, behind⟩ := revisions t old
    obtain ⟨q, kept, rises⟩ := change.profiles_grow _ p found
    rw [step.row]
    exact ⟨q, kept, Nat.le_trans behind rises⟩
  · obtain ⟨now, actor, profile, previous, scope, rfl, _, new⟩ := recorded
    obtain ⟨row, _, _, found, _, _, _, _, owner, revision, _⟩ :=
      OperationRepository.created_task new
    refine ⟨row, ?_, Nat.le_of_eq revision⟩
    rw [(OperationRepository.record_frame db now actor profile previous scope).2.2.2.1, owner]
    exact found

/-! The peers behind recorded targets. -/

/-- A retired AWG peer that every node confirmed removed, and that no task will name. -/
structure Forgotten (db : Db) (profile slot : Uuid) : Prop where
  drawn : slot < db.fresh
  device : db.access.devices.lookup slot = none
  peer : db.access.retiredPeers.lookup slot = none
  removed : DeviceRepository.removed db (DeviceRepository.deviceTasks db profile slot) = true

/-- A task's target is a device of its profile, or a delete of a retired AWG peer. -/
def Known (db : Db) (t : TaskRow) : Prop :=
  (∃ d, db.access.devices.lookup t.device = some d ∧ d.profile = t.profile ∧
    (t.protocol = .xray → (db.access.credentials.lookup t.device).isSome = true)) ∨
  (t.protocol = .awg ∧ t.action = .delete ∧
    ((∃ r, db.access.retiredPeers.lookup t.device = some r ∧ r.profile = t.profile) ∨
      Forgotten db t.profile t.device))

theorem mem_deviceTasks {profile device : Uuid} {t : Task} :
    t ∈ DeviceRepository.deviceTasks db profile device ↔
      t ∈ db.outbox.tasks ∧ t.row.profile = profile ∧ t.row.device = device := by
  simp [DeviceRepository.deviceTasks]

theorem mem_latest {tasks : List Task} {t : Task} :
    t ∈ DeviceRepository.latest tasks ↔ t ∈ tasks ∧ ∀ u ∈ tasks,
      u.row.node ≠ t.row.node ∨ DeviceRepository.newer u.row t.row = false := by
  simp [DeviceRepository.latest, List.mem_filter]

theorem removed_iff {tasks : List Task} :
    DeviceRepository.removed db tasks = true ↔ ∀ t ∈ DeviceRepository.latest tasks,
      DeviceRepository.verified db t.row.node = true ∨
        (t.row.action = .delete ∧ t.status = .succeeded) := by
  simp [DeviceRepository.removed]

theorem Recorded.peer {u : Task} (recorded : Recorded db next u) :
    (∃ d, db.access.devices.lookup u.row.device = some d ∧ d.profile = u.row.profile ∧
      (u.row.protocol = .xray → (next.access.credentials.lookup u.row.device).isSome = true)) ∨
    (u.row.protocol = .awg ∧ u.row.action = .delete ∧
      ∃ r, db.access.retiredPeers.lookup u.row.device = some r ∧ r.profile = u.row.profile) := by
  obtain ⟨now, actor, profile, previous, scope, rfl, _, new⟩ := recorded
  obtain ⟨row, target, peer, found, _, member, _, _, owner, _, _, protocol, device, action⟩ :=
    OperationRepository.created_task new
  have prepared := OperationRepository.prepare_prepares db profile
  have access : (OperationRepository.record db now actor profile previous scope).access =
      (OperationRepository.prepare db profile).access := by
    unfold OperationRepository.record
    rw [found]
    rfl
  rw [owner, protocol, device, access]
  cases kind : target.2 with
  | awg =>
    rw [kind] at member
    rcases DeviceCredentials.mem_awgPeers.mp member with ⟨d, known, same, _⟩ | old
    · rw [prepared.devices] at known
      exact .inl ⟨d, known, same, by simp⟩
    · obtain ⟨r, known, same, shape⟩ := DeviceCredentials.mem_retiredAwgPeers.mp old
      rw [prepared.retiredPeers] at known
      refine .inr ⟨rfl, ?_, r, known, same⟩
      rw [action, shape]
      simp
  | xray =>
    rw [kind] at member
    obtain ⟨d, c, known, same, credential, _⟩ := DeviceCredentials.mem_xrayPeers.mp member
    rw [prepared.devices] at known
    exact .inl ⟨d, known, same, fun _ => by rw [credential]; rfl⟩

/-- No node has been retired again after a verified retirement. -/
def VerifiedKept (db next : Db) : Prop :=
  ∀ node, DeviceRepository.verified db node = true → DeviceRepository.verified next node = true

theorem Forgotten.step {profile slot : Uuid} (forgotten : Forgotten db profile slot)
    (numbered : Numbered db) (verified : VerifiedKept db next)
    (change : Change locked allow db es next) : Forgotten next profile slot where
  drawn := Nat.lt_of_lt_of_le forgotten.drawn change.later
  device := change.no_device forgotten.drawn forgotten.device
  peer := change.no_slot forgotten.drawn forgotten.peer
  removed := by
    rw [removed_iff]
    intro u last
    obtain ⟨listed, newest⟩ := mem_latest.mp last
    obtain ⟨mem, owner, device⟩ := mem_deviceTasks.mp listed
    rcases change.task_from numbered mem with ⟨t, old, step⟩ | recorded
    · have row := step.row
      have was : t ∈ DeviceRepository.latest (DeviceRepository.deviceTasks db profile slot) := by
        refine mem_latest.mpr ⟨mem_deviceTasks.mpr ⟨old, row ▸ owner, row ▸ device⟩, ?_⟩
        intro w among
        obtain ⟨older, same, its⟩ := mem_deviceTasks.mp among
        obtain ⟨v, kept, moved⟩ := change.task_to numbered older
        have later := newest v (mem_deviceTasks.mpr
          ⟨kept, by rw [moved.row]; exact same, by rw [moved.row]; exact its⟩)
        rw [moved.row, row] at later
        exact later
      rcases removed_iff.mp forgotten.removed t was with checked | ⟨delete, done⟩
      · rw [row]
        exact .inl (verified _ checked)
      · refine .inr ⟨row ▸ delete, ?_⟩
        cases step with
        | moves h => rw [h.status.final (by rw [done]; rfl), done]
        | claimed held free current =>
          rw [IntentExecutor.claimable, done] at free
          simp at free
    · rcases recorded.peer with ⟨d, known, _⟩ | ⟨_, _, r, known, _⟩
      · rw [device, forgotten.device] at known
        cases known
      · rw [device, forgotten.peer] at known
        cases known

theorem Known.step {t : TaskRow} (known : Known db t) (numbered : Numbered db)
    (verified : VerifiedKept db next) (change : Change locked allow db es next) :
    Known next t := by
  rcases known with ⟨d, found, same, client⟩ | ⟨awg, delete, ⟨r, found, same⟩ | forgotten⟩
  · obtain ⟨e, kept, le⟩ := change.devices_grow _ d found
    exact .inl ⟨e, kept, le.profile.trans same,
      fun xray => change.credentials_kept _ (client xray)⟩
  · refine .inr ⟨awg, delete, ?_⟩
    have drawn := (numbered.slots _ r found).1
    have unused := change.no_device drawn (numbered.slots _ r found).2
    cases change with
    | @access a operations fresh grows =>
      rcases grows.slots _ r found with kept | ⟨gone, removed⟩
      · exact .inl ⟨r, kept, same⟩
      · exact .inr ⟨Nat.lt_of_lt_of_le drawn grows.later, unused, gone, same ▸ removed⟩
    | record now actor profile previous scope behind covers =>
      refine .inl ⟨r, ?_, same⟩
      rw [(OperationRepository.record_frame db now actor profile previous scope).2.2.2.2.2.2]
      exact found
    | _ => exact .inl ⟨r, found, same⟩
  · exact .inr ⟨awg, delete, .inr (forgotten.step numbered verified change)⟩

/-- A retired AWG peer belongs to a profile with devices. -/
def Owned (db : Db) : Prop :=
  ∀ slot r, db.access.retiredPeers.lookup slot = some r →
    ∃ id d, db.access.devices.lookup id = some d ∧ d.profile = r.profile

theorem Owned.step (owned : Owned db) (change : Change locked allow db es next) :
    Owned next := by
  have devices := change.devices_grow
  have kept : ∀ slot r, db.access.retiredPeers.lookup slot = some r →
      ∃ id d, next.access.devices.lookup id = some d ∧ d.profile = r.profile := by
    intro slot r found
    obtain ⟨id, d, row, same⟩ := owned slot r found
    obtain ⟨e, later, le⟩ := devices id d row
    exact ⟨id, e, later, le.profile.trans same⟩
  intro slot r found
  cases change with
  | access grows =>
    rcases grows.slotOwners slot r found with old | new
    · exact kept slot r old
    · exact new
  | record now actor profile previous scope behind covers =>
    rw [(OperationRepository.record_frame db now actor profile previous scope).2.2.2.2.2.2]
      at found
    exact kept slot r found
  | _ => exact kept slot r found

def AllKnown (db : Db) : Prop := ∀ t ∈ db.outbox.tasks, Known db t.row

theorem AllKnown.step (known : AllKnown db) (numbered : Numbered db)
    (verified : VerifiedKept db next) (change : Change locked allow db es next) :
    AllKnown next := by
  intro u listed
  rcases change.task_from numbered listed with ⟨t, old, step⟩ | recorded
  · rw [step.row]
    exact (known t old).step numbered verified change
  · have devices := change.devices_grow
    rcases recorded.peer with ⟨d, found, same, client⟩ | ⟨awg, delete, r, found, same⟩
    · obtain ⟨e, kept, le⟩ := devices _ d found
      exact .inl ⟨e, kept, le.profile.trans same, client⟩
    · obtain ⟨now, actor, profile, previous, scope, rfl, _, _⟩ := recorded
      refine .inr ⟨awg, delete, .inl ⟨r, ?_, same⟩⟩
      rw [(OperationRepository.record_frame db now actor profile previous scope).2.2.2.2.2.2]
      exact found

end Kept
end Controller
end NodePlane
