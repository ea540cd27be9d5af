import NodePlane.Controller.Sound

/-! A recording is complete: it ensures exactly the entitled targets and deletes every
other target that was ever recorded. -/
namespace NodePlane
namespace Controller
open Library OperationRepository

/-- The device should have access to the target now. -/
structure Entitled (db : Db) (now : Time) (profile : Uuid) (target : Target) (device : Uuid) :
    Prop where
  active : ∃ row, db.access.profiles.lookup profile = some row ∧ active row now = true
  granted : target ∈ currentTargets db profile
  node : ∃ n, db.fleet.nodes.lookup target.1 = some n ∧ n.enabled = true
  device : ∃ d, db.access.devices.lookup device = some d ∧ d.profile = profile ∧
    d.status = .active

/-- The target that a task is for. -/
def TaskRow.For (t : TaskRow) (profile : Uuid) (target : Target) (device : Uuid) : Prop :=
  t.profile = profile ∧ t.node = target.1 ∧ t.protocol = target.2 ∧ t.device = device

section Records
variable {db : Db} {now : Time} {actor profile : Uuid} {previous : List Target}
  {scope : Option (List Target)}

theorem action_ensure {row : Profile} {target : Target} :
    action db profile row now target = .ensure ↔
      active row now = true ∧ (db.fleet.nodes.lookup target.1).any Node.enabled = true ∧
        target ∈ currentTargets db profile := by
  unfold action
  split
  · next entitled => exact ⟨fun _ => entitled, fun _ => rfl⟩
  · next refused => exact ⟨fun bad => (by cases bad), fun entitled => absurd entitled refused⟩

theorem any_enabled {node : NodeKey} :
    (db.fleet.nodes.lookup node).any Node.enabled = true ↔
      ∃ n, db.fleet.nodes.lookup node = some n ∧ n.enabled = true := by
  cases db.fleet.nodes.lookup node <;> simp

/-- A peer that a recording addresses makes its target actionable. -/
theorem actionable_of_peer {target : Target} {peer : DeviceCredentials.Peer} {d : Device}
    (found : db.access.devices.lookup peer.id = some d) (owner : d.profile = profile)
    (member : peer ∈ DeviceCredentials.peers (prepare db profile).access profile target.2)
    (clean : target.1 ∉ db.fleet.cleanups) (live : db.fleet.retired target.1 = false) :
    actionable (prepare db profile) profile target = true := by
  have prepared := prepare_prepares db profile
  unfold actionable
  rw [prepared.fleet]
  have open_ : db.fleet.cleanups.contains target.1 = false := by simpa using clean
  have kept : (db.fleet.retirements.lookup target.1).isNone = true := by
    simpa [Fleet.retired] using live
  rw [open_, kept]
  cases kind : target.2 with
  | awg =>
    have device : (peer.id, d) ∈
        DeviceCredentials.devicesOf (prepare db profile).access profile := by
      rw [DeviceCredentials.mem_devicesOf, prepared.devices]
      exact ⟨found, owner⟩
    have some_ := List.ne_nil_of_mem device
    simpa using some_
  | xray =>
    rw [kind] at member
    have some_ := List.ne_nil_of_mem member
    simpa [DeviceCredentials.peers] using some_

/-- A device behind a target gets a task, with the action that it is due. -/
theorem created_for (now : Time) (actor : Uuid) (previous : List Target) {row : Profile}
    {target : Target} {device : Uuid} {d : Device}
    (owned : db.access.profiles.lookup profile = some row)
    (found : db.access.devices.lookup device = some d) (owner : d.profile = profile)
    (client : target.2 = .xray →
      ((prepare db profile).access.credentials.lookup device).isSome = true)
    (named : target ∈ previous ∨ target ∈ currentTargets db profile)
    (inside : scope.all (·.contains target) = true)
    (clean : target.1 ∉ db.fleet.cleanups) (live : db.fleet.retired target.1 = false) :
    ∃ u ∈ created db now actor profile previous scope,
      u.row.For profile target device ∧ u.row.revision = row.desiredRevision ∧
      u.row.action = if d.status = .active then action db profile row now target
        else .delete := by
  have prepared := prepare_prepares db profile
  have known : (prepare db profile).access.devices.lookup device = some d := by
    rw [prepared.devices]
    exact found
  obtain ⟨peer, member, same, status⟩ :=
    DeviceCredentials.peer_of_device known owner client
  have chosen : target ∈ selected (prepare db profile) profile previous scope := by
    refine mem_selected.mpr ⟨?_, inside, ?_⟩
    · unfold currentTargets
      rw [prepared.grants]
      exact named
    · exact actionable_of_peer (same ▸ found) owner member clean live
  obtain ⟨u, new, owns, revision, node, protocol, its, act⟩ :=
    created_of_peer now actor owned chosen member
  refine ⟨u, new, ⟨owns, node, protocol, its.trans same⟩, revision, ?_⟩
  rw [act, status, action_prepare]

/-- The ensure side: exactly the entitled targets of the scope. -/
theorem created_ensures (fenced : Fenced db) (target : Target) (device : Uuid) :
    (∃ u ∈ created db now actor profile previous scope,
        u.row.For profile target device ∧ u.row.action = .ensure) ↔
      Entitled db now profile target device ∧ scope.all (·.contains target) = true := by
  have prepared := prepare_prepares db profile
  constructor
  · rintro ⟨u, new, ⟨_, node, protocol, its⟩, ensure⟩
    obtain ⟨row, chosenTarget, peer, owned, chosen, member, _, _, _, _, place, kind, peerIs, act⟩ :=
      created_task new
    have same : chosenTarget = target := Prod.ext (place ▸ node) (kind ▸ protocol)
    subst same
    rw [ensure] at act
    split at act
    · next live =>
      obtain ⟨d, known, owner, status⟩ := DeviceCredentials.active_peer member live
      rw [prepared.devices] at known
      rw [action_prepare] at act
      obtain ⟨active, enabled, granted⟩ := action_ensure.mp act.symm
      exact ⟨⟨⟨row, owned, active⟩, granted, any_enabled.mp enabled,
        ⟨d, by rw [← its, peerIs]; exact known, owner, status⟩⟩, (mem_selected.mp chosen).2.1⟩
    · cases act
  · rintro ⟨entitled, inside⟩
    obtain ⟨row, owned, active⟩ := entitled.active
    obtain ⟨n, there, on⟩ := entitled.node
    obtain ⟨d, known, owner, status⟩ := entitled.device
    have clean : target.1 ∉ db.fleet.cleanups := fun cleaning => by
      rw [fenced.disabled _ (fenced.cleanups _ cleaning) n there] at on
      cases on
    have live : db.fleet.retired target.1 = false := by
      cases gone : db.fleet.retired target.1 with
      | false => rfl
      | true =>
        rw [(fenced.retired _ gone).1] at there
        cases there
    obtain ⟨u, new, its, _, act⟩ := created_for now actor previous owned known owner
      (fun _ => prepare_client known owner status) (.inr entitled.granted) inside clean live
    refine ⟨u, new, its, ?_⟩
    rw [act, if_pos status]
    exact action_ensure.mpr ⟨active, any_enabled.mpr ⟨n, there, on⟩, entitled.granted⟩

/-- The delete side: every other recorded target of the scope. -/
theorem created_deletes (now : Time) (actor : Uuid) (slots : Owned db) {row : Profile}
    (owned : db.access.profiles.lookup profile = some row)
    (covers : ∀ t ∈ db.outbox.tasks, t.row.profile = profile →
      scope.all (·.contains (t.row.node, t.row.protocol)) = true →
      (t.row.node, t.row.protocol) ∈ previous)
    {t : Task} (listed : t ∈ db.outbox.tasks) (known : Known db t.row)
    (owns : t.row.profile = profile)
    (inside : scope.all (·.contains (t.row.node, t.row.protocol)) = true)
    (clean : t.row.node ∉ db.fleet.cleanups) (live : db.fleet.retired t.row.node = false)
    (kept : ¬Forgotten db profile t.row.device)
    (refused : ¬Entitled db now profile (t.row.node, t.row.protocol) t.row.device) :
    ∃ u ∈ created db now actor profile previous scope,
      u.row.For profile (t.row.node, t.row.protocol) t.row.device ∧
      u.row.revision = row.desiredRevision ∧ u.row.action = .delete := by
  have named := covers t listed owns inside
  have prepared := prepare_prepares db profile
  rcases known with ⟨d, found, owner, client⟩ | ⟨awg, _, ⟨r, found, owner⟩ | forgotten⟩
  · rw [owns] at owner
    obtain ⟨u, new, its, revision, act⟩ := created_for now actor previous owned found owner
      (fun xray => prepared.credentials _ (client xray)) (.inl named) inside clean live
    refine ⟨u, new, its, revision, ?_⟩
    rw [act]
    split
    · next status =>
      cases due : action db profile row now (t.row.node, t.row.protocol) with
      | delete => rfl
      | ensure =>
        obtain ⟨active, enabled, granted⟩ := action_ensure.mp due
        exact absurd ⟨⟨row, owned, active⟩, granted, any_enabled.mp enabled,
          ⟨d, found, owner, status⟩⟩ refused
    · rfl
  · rw [owns] at owner
    obtain ⟨id, d, device, same⟩ := slots _ r found
    have member : (⟨t.row.device, .retired, r.runtimeName, none⟩ : DeviceCredentials.Peer) ∈
        DeviceCredentials.peers (prepare db profile).access profile
          (t.row.node, t.row.protocol).2 := by
      rw [awg]
      refine DeviceCredentials.mem_awgPeers.mpr (.inr
        (DeviceCredentials.mem_retiredAwgPeers.mpr ⟨r, ?_, owner, rfl⟩))
      rw [prepared.retiredPeers]
      exact found
    have chosen : (t.row.node, t.row.protocol) ∈
        selected (prepare db profile) profile previous scope := by
      refine mem_selected.mpr ⟨.inl named, inside, ?_⟩
      have first : (⟨id, d.status, d.runtimeName, none⟩ : DeviceCredentials.Peer) ∈
          DeviceCredentials.peers (prepare db profile).access profile
            (t.row.node, t.row.protocol).2 := by
        rw [awg]
        refine DeviceCredentials.mem_awgPeers.mpr (.inl ⟨d, ?_, same.trans owner, rfl⟩)
        rw [prepared.devices]
        exact device
      exact actionable_of_peer device (same.trans owner) first clean live
    obtain ⟨u, new, its, revision, node, protocol, device, act⟩ :=
      created_of_peer now actor owned chosen member
    exact ⟨u, new, ⟨its, node, protocol, device⟩, revision, by rw [act]; simp⟩
  · exact absurd (owns ▸ forgotten) kept

end Records
end Controller
end NodePlane
