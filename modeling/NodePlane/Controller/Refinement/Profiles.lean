import NodePlane.Controller.Sound

/-! Transactions over profiles and devices are runs of changes. -/
namespace NodePlane
namespace Controller
open Library OperationRepository

section Runs
variable {locked : Bool} {allow : Fleet → Job → Prop} {db : Db}

theorem mem_targets {profile : Uuid} {t : Task} (listed : t ∈ db.outbox.tasks)
    (owner : t.row.profile = profile) : (t.row.node, t.row.protocol) ∈ targets db profile := by
  refine List.mem_append_right _ (List.mem_map.mpr ⟨t, ?_, rfl⟩)
  exact List.mem_filter.mpr ⟨listed, by simpa using owner⟩

/-- A new revision is ahead of every task of the profile. -/
theorem behind_bump (revisions : Revisions db) {profile : Uuid} {t : Task}
    (listed : t ∈ db.outbox.tasks) {p : Profile} (owner : t.row.profile = profile)
    (found : (OperationRepository.bump db profile).access.profiles.lookup profile = some p) :
    t.row.revision < p.desiredRevision := by
  obtain ⟨q, row, behind⟩ := revisions t listed
  have raised : p.desiredRevision = q.desiredRevision + 1 := by
    dsimp only [OperationRepository.bump] at found
    rw [Table.lookup_alter, if_pos rfl, ← owner, row] at found
    cases found
    rfl
  rw [raised]
  exact Nat.lt_succ_of_le behind

namespace Reaches

theorem bump (profile : Uuid) :
    Reaches locked allow db [] (OperationRepository.bump db profile) :=
  access fun _ => .alterProfile profile fun _ => Nat.le_succ _

theorem setProfile (profile : Uuid) {f : Profile → Profile}
    (keeps : ∀ p, (f p).desiredRevision = p.desiredRevision) :
    Reaches locked allow db [] (ProfileCommands.setProfile db profile f) :=
  access fun _ => .alterProfile profile fun p => Nat.le_of_eq (keeps p).symm

theorem materialize (profile : Uuid) (rows : List Target) :
    Reaches locked allow db [] (GrantPolicies.materialize db profile rows) :=
  quiet rfl rfl rfl rfl

/-- A recording at a new revision of the profile. -/
theorem renew (now : Time) (actor profile : Uuid) (previous : List Target)
    (scope : Option (List Target))
    (covers : ∀ t ∈ db.outbox.tasks, t.row.profile = profile →
      scope.all (·.contains (t.row.node, t.row.protocol)) = true →
      (t.row.node, t.row.protocol) ∈ previous) :
    Reaches locked allow db []
      (record (OperationRepository.bump db profile) now actor profile previous scope) := by
  intro sound
  have bumped : Steps (Change locked allow) db [] (OperationRepository.bump db profile) :=
    bump profile sound
  exact bumped.trans (Steps.single (.record now actor profile previous scope
    (fun t listed p owner found => behind_bump sound.revisions listed owner found) covers))

/-- A recording without a scope, over every target known before. -/
theorem renewAll {earlier : Db} (now : Time) (actor profile : Uuid)
    (same : earlier.outbox.tasks = db.outbox.tasks) :
    Reaches locked allow db []
      (record (OperationRepository.bump db profile) now actor profile
        (targets earlier profile) none) :=
  renew now actor profile _ none fun t listed owner _ =>
    mem_targets (by rw [same]; exact listed) owner

theorem mark {p : Task → Bool} {status : Status}
    (settles : ∀ t ∈ db.outbox.tasks, p t = true → t.status.Settles locked status) :
    Reaches locked allow db [] (OperationRepository.mark db p status) := by
  refine change fun _ => .tasks (fun t => if p t then { t with status := status } else t) ?_ rfl
  intro t listed
  split
  · next marked => exact ⟨rfl, settles t listed marked⟩
  · exact Task.Moves.refl _ t

theorem setOperation (operation : Uuid) (status : OperationStatus) :
    Reaches locked allow db [] (OperationRepository.setOperation db operation status) :=
  operations (map_keys fun o _ => by split <;> rfl)

theorem summarize (operation : Uuid) :
    Reaches locked allow db [] (OperationRepository.summarize db operation) :=
  setOperation operation _

theorem settleRetiredPeers :
    Reaches locked allow db [] (DeviceRepository.settleRetiredPeers db) := by
  refine access fun sound =>
    { later := Nat.le_refl _
      profiles := fun _ p found => ⟨p, found, Nat.le_refl _⟩
      newProfiles := fun id p found => .inl (by rw [found]; rfl)
      devices := Table.Grows.refl Device.Le.refl _
      newDevices := fun id d found => .inl (by rw [found]; rfl)
      credentials := fun id known => known
      newSlots := fun slot r found => .inl (Table.lookup_keep.mp found).1
      slotOwners := fun slot r found => .inl (Table.lookup_keep.mp found).1
      slots := ?_ }
  intro slot r found
  by_cases gone : DeviceRepository.removed db
      (DeviceRepository.deviceTasks db r.profile slot) = true
  · refine .inr ⟨?_, gone⟩
    cases kept : (db.access.retiredPeers.keep fun slot peer =>
        !DeviceRepository.removed db
          (DeviceRepository.deviceTasks db peer.profile slot)).lookup slot with
    | none => rfl
    | some q =>
      obtain ⟨row, open_⟩ := Table.lookup_keep.mp kept
      rw [found] at row
      cases row
      rw [gone] at open_
      cases open_
  · exact .inl (Table.lookup_keep.mpr ⟨found, by simpa using gone⟩)

theorem settleDeletions :
    Reaches locked allow db [] (DeviceRepository.settleDeletions db) := by
  refine after (access fun _ => .mapDevices (Table.Grows.mapRows ?_) mapRows_known)
    settleRetiredPeers
  intro id d
  split
  · exact ⟨rfl, fun bad => by cases bad⟩
  · exact Device.Le.refl d

theorem settleAccounts : Reaches locked allow db [] (AccountDeletions.settle db) := by
  refine after (access fun _ => .mapDevices (Table.Grows.mapRows ?_) mapRows_known)
    (quiet rfl rfl rfl rfl)
  intro id d
  split
  · exact ⟨rfl, fun bad => by cases bad⟩
  · exact Device.Le.refl d

theorem refreshOperation (operation : Uuid) :
    Reaches locked allow db [] (IntentExecutor.refreshOperation db operation) :=
  ((summarize operation).after settleDeletions).after settleAccounts

/-! Access policies. -/

theorem refresh (now : Time) (actor : Uuid) (change : Uuid × List Target) :
    Reaches locked allow db [] (GrantPolicies.refresh now actor db change) :=
  (materialize change.1 change.2).after (renewAll now actor change.1 rfl)

theorem reconcile (now : Time) (actor : Uuid) (changes : List (Uuid × List Target)) :
    Reaches locked allow db [] (GrantPolicies.reconcile db now actor changes) :=
  foldl (fun _ change _ => refresh now actor change) db

/-! Profiles. -/

theorem createProfile {now : Time} {actor owner : Uuid} {expiresAt : Option Time}
    {explicit rows : List Target} {next : Db}
    (done : ProfileCommands.create db now actor owner expiresAt explicit rows = .ok next) :
    Reaches locked allow db [] next := by
  simp only [ProfileCommands.create, admitted_ok, deny_ok] at done
  obtain ⟨_, _, _, _, _, _, ended⟩ := done
  cases ended
  intro sound
  have unused : db.access.profiles.lookup db.fresh = none := by
    cases row : db.access.profiles.lookup db.fresh with
    | none => rfl
    | some p => exact absurd (sound.numbered.profiles _ p row) (Nat.lt_irrefl _)
  have unnamed : ∀ t ∈ db.outbox.tasks, t.row.profile ≠ db.fresh := by
    intro t listed same
    obtain ⟨p, row, _⟩ := sound.revisions t listed
    rw [same, unused] at row
    cases row
  have created : Reaches locked allow db [] { db with
      access.profiles := db.access.profiles.put db.fresh ⟨owner, 1, false, expiresAt, false⟩
      fresh := db.fresh + 1 } := draw fun _ => .putProfile _ unused
  have granted := created.after (materialize db.fresh rows)
  exact granted.after (change fun _ => .record now actor db.fresh [] none
    (fun t listed p same _ => absurd same (unnamed t listed))
    (fun t listed same _ => absurd same (unnamed t listed))) sound

theorem edit_frame (e : ProfileCommands.Edit) (profile : Uuid) :
    Reaches locked allow db [] (ProfileCommands.setProfile db profile e.apply) :=
  setProfile profile fun _ => rfl

theorem editProfile {now : Time} {actor profile : Uuid} {revision : ℕ}
    {e : ProfileCommands.Edit} {next : Db}
    (done : ProfileCommands.edit db now actor profile revision e = .ok next) :
    Reaches locked allow db [] next := by
  simp only [ProfileCommands.edit, admitted_ok, need_ok, deny_ok] at done
  obtain ⟨_, _, row, _, _, _, _, _, _, _, ended⟩ := done
  cases ended
  refine after (edit_frame e profile) ?_
  cases e.rows with
  | none => exact renewAll now actor profile rfl
  | some rows => exact (materialize profile rows).after (renewAll now actor profile rfl)

theorem retire_le (profile _id : Uuid) (d : Device) :
    d.Le (if d.profile = profile ∧ d.status = .active then { d with status := .deleting }
      else d) := by
  split
  · exact ⟨rfl, fun bad => by cases bad⟩
  · exact Device.Le.refl d

theorem freeze (profile : Uuid) :
    Reaches locked allow db [] (ProfileCommands.setProfile db profile fun p =>
      { p with frozen := true }) :=
  setProfile profile fun _ => rfl

theorem deleteProfile {now : Time} {actor profile : Uuid} {revision : ℕ} {next : Db}
    (done : ProfileCommands.delete db now actor profile revision = .ok next) :
    Reaches locked allow db [] next := by
  simp only [ProfileCommands.delete, admitted_ok, need_ok, deny_ok] at done
  obtain ⟨_, _, row, _, _, _, _, ended⟩ := done
  cases ended
  have closed : Reaches locked allow db [] { db with
      access.deletions := db.access.deletions.put profile none
      access.grants := db.access.grants.filter fun g => g.profile ≠ profile
      access.accountDeletions := row.owner :: db.access.accountDeletions } :=
    quiet rfl rfl rfl rfl
  have emptied := closed.after (access fun _ => .mapDevices
    (Table.Grows.mapRows (retire_le profile)) mapRows_known)
  have frozen := emptied.after (freeze profile)
  refine after ?_ settleAccounts
  refine after ?_ (quiet rfl rfl rfl rfl)
  refine after ?_ (renewAll now actor profile ?_)
  · exact frozen
  · rfl

theorem permanent (profile : Uuid) :
    Reaches locked allow db [] (ProfileCommands.setProfile db profile fun p =>
      { p with frozen := false, expiresAt := none }) :=
  setProfile profile fun _ => rfl

theorem restoreAdminExpiry (now : Time) (changes : List (Uuid × List Target)) (profile : Uuid) :
    Reaches locked allow db [] (ProfileCommands.restoreAdminExpiry now changes db profile) := by
  unfold ProfileCommands.restoreAdminExpiry
  split
  · exact refl db
  · next row found =>
    split
    · next rows listed =>
      refine after ?_ (renewAll now row.owner profile ?_)
      · exact after (materialize profile rows) (permanent profile)
      · rfl
    · split
      · exact refl db
      · refine after (permanent profile) (renewAll now row.owner profile ?_)
        rfl

theorem restoreAdminExpiries (now : Time) (changes : List (Uuid × List Target)) :
    Reaches locked allow db [] (ProfileCommands.restoreAdminExpiries db now changes) :=
  foldl (fun _ profile _ => restoreAdminExpiry now changes profile) db

theorem suspend (now : Time) (profile : Uuid) (blocked : Bool) :
    Reaches locked allow db [] (Quotas.suspend db now profile blocked) := by
  have changed : Reaches locked allow db [] (ProfileCommands.setProfile db profile fun p =>
      { p with blocked := blocked }) := setProfile profile fun _ => rfl
  refine changed.after ?_
  unfold Quotas.suspend Quotas.changeAccess
  split
  · exact refl _
  · next latest _ => exact renewAll now latest.actor profile rfl

theorem changeRole {now : Time} {actor account : Uuid} {admin : Bool}
    {changes : List (Uuid × List Target)} {next : Db}
    (done : Request.changeRole db now actor account admin changes = .ok next) :
    Reaches locked allow db [] next := by
  simp only [Request.changeRole, admitted_ok] at done
  obtain ⟨_, _, ended⟩ := done
  cases ended
  split
  · refine after ?_ (foldl (fun _ profile _ => restoreAdminExpiry now changes profile) _)
    exact quiet rfl rfl rfl rfl
  · refine after ?_ (reconcile now actor changes)
    exact quiet rfl rfl rfl rfl

/-! Devices. -/

theorem ensureXray (device : Uuid) (row : Device) :
    Reaches locked allow db [] (DeviceCredentials.ensureXray db device row) := by
  have prepares := DeviceCredentials.ensureXray_prepares db device row
  rw [prepares.shape]
  refine draw fun _ =>
    { later := prepares.later
      profiles := fun _ p found => ⟨p, found, Nat.le_refl _⟩
      newProfiles := fun id p found => .inl (by rw [found]; rfl)
      devices := Table.Grows.refl Device.Le.refl _
      newDevices := fun id d found => .inl (by rw [found]; rfl)
      credentials := prepares.credentials
      newSlots := fun slot r found => .inl found
      slotOwners := fun slot r found => .inl found
      slots := fun slot r found => .inl found }

theorem createDevice (profile : Uuid) :
    Reaches locked allow db [] { db with
      access.devices := db.access.devices.put db.fresh ⟨profile, db.fresh + 1, .active⟩
      fresh := db.fresh + 2 } := by
  refine draw fun sound =>
    { later := Nat.le_add_right _ 2
      profiles := fun _ p found => ⟨p, found, Nat.le_refl _⟩
      newProfiles := fun id p found => .inl (by rw [found]; rfl)
      devices := Table.Grows.put Device.Le.refl fun old found =>
        absurd (sound.numbered.devices _ old found) (Nat.lt_irrefl _)
      newDevices := ?_
      credentials := fun id known => known
      newSlots := fun slot r found => .inl found
      slotOwners := fun slot r found => .inl found
      slots := fun slot r found => .inl found }
  intro id d found
  dsimp only at found
  rw [Table.lookup_put] at found
  split at found
  · next same =>
    refine .inr ⟨Nat.le_of_eq same.symm, ?_⟩
    rw [same]
    exact Nat.lt_succ_of_lt (Nat.lt_succ_self _)
  · exact .inl (by rw [found]; rfl)

theorem rotateXray (device : Uuid) (row : Device) :
    Reaches locked allow db [] (DeviceCredentials.rotateXray db device row) := by
  refine (ensureXray device row).after ?_
  refine draw fun _ =>
    { later := Nat.le_succ _
      profiles := fun _ p found => ⟨p, found, Nat.le_refl _⟩
      newProfiles := fun id p found => .inl (by rw [found]; rfl)
      devices := Table.Grows.refl Device.Le.refl _
      newDevices := fun id d found => .inl (by rw [found]; rfl)
      credentials := ?_
      newSlots := fun slot r found => .inl found
      slotOwners := fun slot r found => .inl found
      slots := fun slot r found => .inl found }
  intro id known
  dsimp only
  rw [Table.lookup_alter]
  split
  · next same =>
    subst same
    simpa using known
  · exact known

theorem rotateAwg {device : Uuid} {row : Device}
    (owner : db.access.devices.lookup device = some row) :
    Reaches locked allow db [] (DeviceCredentials.rotateAwg db device row) := by
  refine draw fun sound =>
    { later := Nat.le_add_right _ 2
      profiles := fun _ p found => ⟨p, found, Nat.le_refl _⟩
      newProfiles := fun id p found => .inl (by rw [found]; rfl)
      devices := Table.Grows.alter Device.Le.refl fun d _ => ⟨rfl, fun h => h⟩
      newDevices := fun id d found => .inl (alter_known device id d found)
      credentials := fun id known => known
      newSlots := ?_
      slotOwners := ?_
      slots := ?_ }
  · intro slot r found
    dsimp only at found
    rw [Table.lookup_put] at found
    split at found
    · next same =>
      refine .inr ⟨Nat.le_of_eq same.symm, ?_, ?_⟩
      · rw [same]
        exact Nat.lt_succ_of_lt (Nat.lt_succ_self _)
      · cases known : (db.access.devices.alter device fun d =>
            { d with runtimeName := db.fresh + 1 }).lookup slot with
        | none => rfl
        | some d =>
          obtain ⟨e, old⟩ := Option.isSome_iff_exists.mp (alter_known device slot d known)
          exact absurd (sound.numbered.devices slot e old) (Nat.not_lt.mpr (Nat.le_of_eq same.symm))
    · exact .inl found
  · intro slot r found
    dsimp only at found
    rw [Table.lookup_put] at found
    split at found
    · cases found
      refine .inr ⟨device, { row with runtimeName := db.fresh + 1 }, ?_, rfl⟩
      dsimp only
      rw [Table.lookup_alter, if_pos rfl, owner]
      rfl
    · exact .inl found
  · intro slot r found
    left
    dsimp only
    rw [Table.lookup_put_ne _ (fun same => ?_)]
    · exact found
    · exact absurd (sound.numbered.slots slot r found).1 (Nat.not_lt.mpr (Nat.le_of_eq same.symm))

theorem prepareDevice {now : Time} {profile : Uuid} {row : Profile}
    {change : DeviceCommands.Change} {next : Db}
    (done : DeviceCommands.prepare db now profile row change = .ok next) :
    Reaches locked allow db [] next := by
  unfold DeviceCommands.prepare at done
  split at done
  · simp only [deny_ok] at done
    obtain ⟨_, _, _, _, _, ended⟩ := done
    cases ended
    exact (createDevice profile).after (ensureXray _ _)
  · simp only [DeviceCommands.selectActive, need_ok, deny_ok] at done
    obtain ⟨device, _, _, _, ended⟩ := done
    cases ended
    exact rotateXray _ device
  · simp only [DeviceCommands.selectActive, need_ok, deny_ok] at done
    obtain ⟨device, found, _, _, ended⟩ := done
    cases ended
    exact rotateAwg found
  · simp only [DeviceCommands.selectActive, need_ok, deny_ok] at done
    obtain ⟨_, _, _, _, ended⟩ := done
    cases ended
    exact access fun _ => .mapDevices
      (Table.Grows.alter Device.Le.refl fun d _ => ⟨rfl, fun bad => by cases bad⟩)
      (fun id d found => alter_known _ id d found)

theorem device {now : Time} {actor profile : Uuid} {change : DeviceCommands.Change} {next : Db}
    (done : DeviceCommands.execute db now actor profile change = .ok next) :
    Reaches locked allow db [] next := by
  simp only [DeviceCommands.execute, admitted_ok, need_ok, deny_ok] at done
  obtain ⟨_, _, row, _, _, ended⟩ := done
  cases prepared : DeviceCommands.prepare db now profile row change with
  | error code =>
    rw [prepared] at ended
    cases ended
  | ok mid =>
    rw [prepared] at ended
    cases ended
    exact ((prepareDevice prepared).after (renewAll now actor profile rfl)).after settleDeletions

/-! Revocations limited to some targets. -/

theorem retireQueued (node : NodeKey) (removed : List Protocol) (profile : Uuid) :
    Reaches locked allow db [] (ProtocolRemoval.retireQueued db node removed profile) := by
  refine after (mark ?_) (foldl (fun _ operation _ => summarize operation) _)
  intro t _ chosen
  simp only [ProtocolRemoval.queued, Bool.and_eq_true, decide_eq_true_eq] at chosen
  exact .inr (.inl ⟨chosen.1.2, rfl⟩)

theorem revokeProfile (now : Time) (actor : Uuid) (node : NodeKey) (removed : List Protocol)
    (previous : Uuid → List Target)
    (names : ∀ profile, ∀ p ∈ removed, (node, p) ∈ previous profile) (profile : Uuid) :
    Reaches locked allow db []
      (ProtocolRemoval.revokeProfile now actor node removed previous db profile) := by
  refine (retireQueued node removed profile).after (renew now actor profile _ _ ?_)
  intro t _ _ inside
  have within : (t.row.node, t.row.protocol) ∈ removed.map fun p => (node, p) := by
    simpa using inside
  obtain ⟨p, member, same⟩ := List.mem_map.mp within
  rw [← same]
  exact names profile p member

theorem revokeRemovedProtocols (now : Time) (actor : Uuid) (node : NodeKey)
    (removed : List Protocol) :
    Reaches locked allow db []
      (ProtocolRemoval.revokeRemovedProtocols db now actor node removed) := by
  unfold ProtocolRemoval.revokeRemovedProtocols
  split
  · exact refl db
  · have names : ∀ profile, ∀ p ∈ removed,
        (node, p) ∈ targets db profile ++ removed.map fun p => (node, p) :=
      fun profile p member => List.mem_append_right _ (List.mem_map.mpr ⟨p, member, rfl⟩)
    refine after ?_ (foldl (fun _ profile _ =>
      revokeProfile now actor node removed _ names profile) _)
    exact quiet rfl rfl rfl rfl

theorem resumeForced (now : Time) (actor : Uuid) (node : NodeKey) :
    Reaches locked allow db []
      (ForceRecovery.resumeForcedProfileTargets db now actor node) := by
  refine foldl (fun _ profile _ => renew now actor profile _ _ ?_) db
  intro t _ _ inside
  simpa using inside

end Reaches
end Runs
end Controller
end NodePlane
