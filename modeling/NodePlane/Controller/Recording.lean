import Mathlib.Data.List.Dedup
import NodePlane.Controller.Outbox

/-! What recording an operation does: the identities it draws first, and the tasks
it appends. -/
namespace NodePlane
namespace Controller
open Library

namespace DeviceCredentials

theorem mem_devicesOf {a : Access} {profile id : Uuid} {d : Device} :
    (id, d) ∈ devicesOf a profile ↔ a.devices.lookup id = some d ∧ d.profile = profile := by
  simp [devicesOf, Table.mem_rows_iff]

theorem mem_retiredAwgPeers {a : Access} {profile : Uuid} {q : Peer} :
    q ∈ retiredAwgPeers a profile ↔
      ∃ r, a.retiredPeers.lookup q.id = some r ∧ r.profile = profile ∧
        q = ⟨q.id, .retired, r.runtimeName, none⟩ := by
  simp only [retiredAwgPeers, List.mem_map, List.mem_filter, Prod.exists, Table.mem_rows_iff,
    decide_eq_true_eq]
  constructor
  · rintro ⟨slot, r, ⟨found, same⟩, rfl⟩
    exact ⟨r, found, same, rfl⟩
  · rintro ⟨r, found, same, shape⟩
    exact ⟨q.id, r, ⟨found, same⟩, shape.symm⟩

theorem mem_xrayPeers {a : Access} {profile : Uuid} {q : Peer} :
    q ∈ xrayPeers a profile ↔
      ∃ d c, a.devices.lookup q.id = some d ∧ d.profile = profile ∧
        a.credentials.lookup q.id = some c ∧
        q = ⟨q.id, d.status, c.runtimeName, some c.uuid⟩ := by
  simp only [xrayPeers, List.mem_filterMap, Prod.exists, mem_devicesOf, Option.map_eq_some_iff]
  constructor
  · rintro ⟨id, d, ⟨found, same⟩, c, credential, rfl⟩
    exact ⟨d, c, found, same, credential, rfl⟩
  · rintro ⟨d, c, found, same, credential, shape⟩
    exact ⟨q.id, d, ⟨found, same⟩, c, credential, shape.symm⟩

theorem mem_awgPeers {a : Access} {profile : Uuid} {q : Peer} :
    q ∈ awgPeers a profile ↔
      (∃ d, a.devices.lookup q.id = some d ∧ d.profile = profile ∧
        q = ⟨q.id, d.status, d.runtimeName, none⟩) ∨ q ∈ retiredAwgPeers a profile := by
  simp only [awgPeers, List.mem_append, List.mem_map, Prod.exists, mem_devicesOf]
  constructor
  · rintro (⟨id, d, ⟨found, same⟩, rfl⟩ | old)
    · exact .inl ⟨d, found, same, rfl⟩
    · exact .inr old
  · rintro (⟨d, found, same, shape⟩ | old)
    · exact .inl ⟨q.id, d, ⟨found, same⟩, shape.symm⟩
    · exact .inr old

/-- A peer that is active is an active device. -/
theorem active_peer {a : Access} {profile : Uuid} {protocol : Protocol} {q : Peer}
    (member : q ∈ peers a profile protocol) (active : q.status = .active) :
    ∃ d, a.devices.lookup q.id = some d ∧ d.profile = profile ∧ d.status = .active := by
  cases protocol with
  | awg =>
    rcases mem_awgPeers.mp member with ⟨d, found, same, shape⟩ | old
    · rw [shape] at active
      exact ⟨d, found, same, active⟩
    · obtain ⟨r, _, _, shape⟩ := mem_retiredAwgPeers.mp old
      rw [shape] at active
      cases active
  | xray =>
    obtain ⟨d, c, found, same, _, shape⟩ := mem_xrayPeers.mp member
    rw [shape] at active
    exact ⟨d, found, same, active⟩

/-- The peer of a device: every AWG device has one, an Xray device once it has a
client. -/
theorem peer_of_device {a : Access} {profile id : Uuid} {protocol : Protocol} {d : Device}
    (found : a.devices.lookup id = some d) (same : d.profile = profile)
    (client : protocol = .xray → (a.credentials.lookup id).isSome = true) :
    ∃ q ∈ peers a profile protocol, q.id = id ∧ q.status = d.status := by
  cases protocol with
  | awg => exact ⟨⟨id, d.status, d.runtimeName, none⟩,
      mem_awgPeers.mpr (.inl ⟨d, found, same, rfl⟩), rfl, rfl⟩
  | xray =>
    obtain ⟨c, credential⟩ := Option.isSome_iff_exists.mp (client rfl)
    exact ⟨⟨id, d.status, c.runtimeName, some c.uuid⟩,
      mem_xrayPeers.mpr ⟨d, c, found, same, credential, rfl⟩, rfl, rfl⟩

/-- The rows that the creation of clients and identities touches. -/
structure Prepares (db next : Db) : Prop where
  shape : next = { db with
    access.credentials := next.access.credentials
    access.identities := next.access.identities
    fresh := next.fresh }
  later : db.fresh ≤ next.fresh
  credentials : ∀ id, (db.access.credentials.lookup id).isSome = true →
    (next.access.credentials.lookup id).isSome = true

namespace Prepares
variable {db next last : Db}

theorem refl (db : Db) : Prepares db db := ⟨rfl, Nat.le_refl _, fun _ h => h⟩

theorem trans (first : Prepares db next) (second : Prepares next last) : Prepares db last where
  shape := by
    have one := first.shape
    have two := second.shape
    rw [one] at two
    exact two
  later := Nat.le_trans first.later second.later
  credentials := fun id h => second.credentials id (first.credentials id h)

theorem outbox (h : Prepares db next) : next.outbox = db.outbox := by rw [h.shape]
theorem fleet (h : Prepares db next) : next.fleet = db.fleet := by rw [h.shape]
theorem devices (h : Prepares db next) : next.access.devices = db.access.devices := by
  rw [h.shape]
theorem profiles (h : Prepares db next) : next.access.profiles = db.access.profiles := by
  rw [h.shape]
theorem grants (h : Prepares db next) : next.access.grants = db.access.grants := by rw [h.shape]
theorem retiredPeers (h : Prepares db next) :
    next.access.retiredPeers = db.access.retiredPeers := by rw [h.shape]
theorem deletions (h : Prepares db next) : next.access.deletions = db.access.deletions := by
  rw [h.shape]

end Prepares

theorem ensureXray_prepares (db : Db) (device : Uuid) (row : Device) :
    Prepares db (ensureXray db device row) := by
  unfold ensureXray
  split
  · exact Prepares.refl db
  · refine ⟨rfl, Nat.le_succ _, ?_⟩
    intro id known
    dsimp only
    rw [Table.lookup_put]
    split
    · rfl
    · exact known

theorem ensureXray_client (db : Db) (device : Uuid) (row : Device) :
    ((ensureXray db device row).access.credentials.lookup device).isSome = true := by
  unfold ensureXray
  split
  · next c found => simp [found]
  · simp

/-- After the fold every listed device has a client. -/
theorem ensure_fold (listed : List (Uuid × Device)) (db : Db) :
    Prepares db (listed.foldl (fun db d => ensureXray db d.1 d.2) db) ∧
      ∀ d ∈ listed, ((listed.foldl (fun db d => ensureXray db d.1 d.2) db).access.credentials.lookup
        d.1).isSome = true := by
  induction listed generalizing db with
  | nil => exact ⟨Prepares.refl db, by simp⟩
  | cons d rest ih =>
    have one := ensureXray_prepares db d.1 d.2
    obtain ⟨tail, clients⟩ := ih (ensureXray db d.1 d.2)
    refine ⟨one.trans tail, ?_⟩
    rintro e (_ | ⟨_, later⟩)
    · exact tail.credentials _ (ensureXray_client db d.1 d.2)
    · exact clients e later

end DeviceCredentials

namespace OperationRepository
open DeviceCredentials

theorem identify_prepares (db : Db) (profile : Uuid) : Prepares db (identify db profile) := by
  unfold identify
  split
  · exact Prepares.refl db
  · exact ⟨rfl, Nat.le_succ _, fun _ h => h⟩

theorem prepare_prepares (db : Db) (profile : Uuid) : Prepares db (prepare db profile) :=
  (identify_prepares db profile).trans (ensure_fold _ _).1

/-- Every active device has an Xray client once a recording is prepared. -/
theorem prepare_client {db : Db} {profile id : Uuid} {d : Device}
    (found : db.access.devices.lookup id = some d) (same : d.profile = profile)
    (active : d.status = .active) :
    ((prepare db profile).access.credentials.lookup id).isSome = true := by
  have devices := (identify_prepares db profile).devices
  refine (ensure_fold _ (identify db profile)).2 (id, d) ?_
  rw [List.mem_filter, mem_devicesOf, devices]
  exact ⟨⟨found, same⟩, by simpa using active⟩

/-! New tasks. -/

theorem mem_number {start : Uuid} {drafts : List TaskRow} {t : Task} :
    t ∈ number start drafts ↔ ∃ row i, (row, i) ∈ drafts.zipIdx start ∧
      t = ⟨{ row with id := i }, .awaitingExecutor, false⟩ := by
  simp only [number, List.mem_map, Prod.exists]
  constructor
  · rintro ⟨row, i, listed, rfl⟩
    exact ⟨row, i, listed, rfl⟩
  · rintro ⟨row, i, listed, rfl⟩
    exact ⟨row, i, listed, rfl⟩

theorem number_row {start : Uuid} {drafts : List TaskRow} {t : Task}
    (listed : t ∈ number start drafts) :
    ∃ row ∈ drafts, t = ⟨{ row with id := t.row.id }, .awaitingExecutor, false⟩ ∧
      start ≤ t.row.id ∧ t.row.id < start + drafts.length := by
  obtain ⟨row, i, pair, rfl⟩ := mem_number.mp listed
  obtain ⟨low, high, place⟩ := List.mem_zipIdx pair
  refine ⟨row, ?_, rfl, low, high⟩
  rw [place]
  exact List.getElem_mem _

theorem number_of_row (start : Uuid) {drafts : List TaskRow} {row : TaskRow}
    (listed : row ∈ drafts) :
    ∃ i, (⟨{ row with id := i }, .awaitingExecutor, false⟩ : Task) ∈ number start drafts := by
  obtain ⟨i, bound, rfl⟩ := List.getElem_of_mem listed
  refine ⟨start + i, mem_number.mpr ⟨_, _, ?_, rfl⟩⟩
  rw [List.mk_add_mem_zipIdx_iff_getElem?]
  exact List.getElem?_eq_getElem bound

theorem number_ids (start : Uuid) (drafts : List TaskRow) :
    (number start drafts).map (fun t => t.row.id) = List.range' start drafts.length := by
  simp only [number, List.map_map, Function.comp_def]
  exact List.zipIdx_map_snd start drafts

/-- The tasks that `record` appends. -/
def created (db : Db) (now : Time) (actor profile : Uuid) (previous : List Target)
    (scope : Option (List Target)) : List Task :=
  match db.access.profiles.lookup profile with
  | none => []
  | some row =>
    let db := prepare db profile
    let chosen := selected db profile previous scope
    number (db.fresh + 1) (rows db (operation db now actor profile row chosen) row chosen)

theorem record_tasks (db : Db) (now : Time) (actor profile : Uuid) (previous : List Target)
    (scope : Option (List Target)) :
    (record db now actor profile previous scope).outbox.tasks =
      db.outbox.tasks ++ created db now actor profile previous scope := by
  have prepared := (prepare_prepares db profile).outbox
  unfold record created
  cases db.access.profiles.lookup profile with
  | none => simp
  | some row => simp [append, prepared]

/-- Beyond its tasks, a recording leaves all but the identities it draws. -/
theorem record_frame (db : Db) (now : Time) (actor profile : Uuid) (previous : List Target)
    (scope : Option (List Target)) :
    (record db now actor profile previous scope).fleet = db.fleet ∧
      (record db now actor profile previous scope).maintenance = db.maintenance ∧
      (record db now actor profile previous scope).access.devices = db.access.devices ∧
      (record db now actor profile previous scope).access.profiles = db.access.profiles ∧
      (record db now actor profile previous scope).access.grants = db.access.grants ∧
      (record db now actor profile previous scope).access.deletions = db.access.deletions ∧
      (record db now actor profile previous scope).access.retiredPeers =
        db.access.retiredPeers := by
  have prepared := prepare_prepares db profile
  unfold record
  cases db.access.profiles.lookup profile with
  | none => simp
  | some row =>
    refine ⟨prepared.fleet, ?_, prepared.devices, prepared.profiles, prepared.grants,
      prepared.deletions, prepared.retiredPeers⟩
    simp only [append]
    rw [prepared.shape]

theorem record_credentials (db : Db) (now : Time) (actor profile : Uuid)
    (previous : List Target) (scope : Option (List Target)) (id : Uuid)
    (known : (db.access.credentials.lookup id).isSome = true) :
    ((record db now actor profile previous scope).access.credentials.lookup id).isSome = true := by
  unfold record
  split
  · exact known
  · exact (prepare_prepares db profile).credentials id known

/-- New tasks are numbered with identities drawn now. -/
theorem created_drawn {db : Db} {now : Time} {actor profile : Uuid} {previous : List Target}
    {scope : Option (List Target)} {t : Task}
    (listed : t ∈ created db now actor profile previous scope) :
    db.fresh ≤ t.row.id ∧
      t.row.id < (record db now actor profile previous scope).fresh := by
  have later := (prepare_prepares db profile).later
  unfold created at listed
  cases found : db.access.profiles.lookup profile with
  | none =>
    rw [found] at listed
    cases listed
  | some row =>
    rw [found] at listed
    obtain ⟨_, _, _, low, high⟩ := number_row listed
    unfold record
    rw [found]
    exact ⟨Nat.le_trans later (Nat.le_trans (Nat.le_succ _) low), high⟩

theorem record_later (db : Db) (now : Time) (actor profile : Uuid) (previous : List Target)
    (scope : Option (List Target)) :
    db.fresh ≤ (record db now actor profile previous scope).fresh := by
  have later := (prepare_prepares db profile).later
  unfold record
  split
  · exact Nat.le_refl _
  · exact Nat.le_trans later (Nat.le_trans (Nat.le_succ _) (Nat.le_add_right _ _))

theorem created_ids_nodup (db : Db) (now : Time) (actor profile : Uuid)
    (previous : List Target) (scope : Option (List Target)) :
    ((created db now actor profile previous scope).map fun t => t.row.id).Nodup := by
  unfold created
  split
  · exact List.nodup_nil
  · rw [number_ids]
    exact List.nodup_range'

/-- Each new task is that of a peer, for a target of the recording. -/
theorem created_task {db : Db} {now : Time} {actor profile : Uuid} {previous : List Target}
    {scope : Option (List Target)} {t : Task}
    (listed : t ∈ created db now actor profile previous scope) :
    ∃ row target peer, db.access.profiles.lookup profile = some row ∧
      target ∈ selected (prepare db profile) profile previous scope ∧
      peer ∈ peers (prepare db profile).access profile target.2 ∧
      t.status = .awaitingExecutor ∧ t.forced = false ∧
      t.row.profile = profile ∧ t.row.revision = row.desiredRevision ∧
      t.row.node = target.1 ∧ t.row.protocol = target.2 ∧ t.row.device = peer.id ∧
      t.row.action = if peer.status = .active then
        action (prepare db profile) profile row now target else .delete := by
  unfold created at listed
  split at listed
  · cases listed
  · next row found =>
    obtain ⟨draft, drafted, shape, _, _⟩ := number_row listed
    obtain ⟨target, chosen, built⟩ := List.mem_flatMap.mp drafted
    obtain ⟨peer, known, rfl⟩ := List.mem_map.mp built
    refine ⟨row, target, peer, found, chosen, known, ?_⟩
    rw [shape]
    exact ⟨rfl, rfl, rfl, rfl, rfl, rfl, rfl, rfl⟩

/-- Conversely, each peer of each chosen target gets its task. -/
theorem created_of_peer {db : Db} (now : Time) (actor : Uuid) {profile : Uuid}
    {previous : List Target} {scope : Option (List Target)} {row : Profile} {target : Target} {peer : Peer}
    (found : db.access.profiles.lookup profile = some row)
    (chosen : target ∈ selected (prepare db profile) profile previous scope)
    (known : peer ∈ peers (prepare db profile).access profile target.2) :
    ∃ t ∈ created db now actor profile previous scope, t.row.profile = profile ∧
      t.row.revision = row.desiredRevision ∧ t.row.node = target.1 ∧
      t.row.protocol = target.2 ∧ t.row.device = peer.id ∧
      t.row.action = if peer.status = .active then
        action (prepare db profile) profile row now target else .delete := by
  let next := prepare db profile
  let chosenTargets := selected next profile previous scope
  let o := operation next now actor profile row chosenTargets
  have drafted : task next o row target peer ∈ rows next o row chosenTargets :=
    List.mem_flatMap.mpr ⟨target, chosen, List.mem_map.mpr ⟨peer, known, rfl⟩⟩
  obtain ⟨i, listed⟩ := number_of_row (next.fresh + 1) drafted
  refine ⟨⟨{ task next o row target peer with id := i }, .awaitingExecutor, false⟩, ?_,
    rfl, rfl, rfl, rfl, rfl, rfl⟩
  unfold created
  rw [found]
  exact listed

theorem mem_selected {db : Db} {profile : Uuid} {previous : List Target}
    {scope : Option (List Target)} {t : Target} :
    t ∈ selected db profile previous scope ↔
      (t ∈ previous ∨ t ∈ currentTargets db profile) ∧ scope.all (·.contains t) = true ∧
        actionable db profile t = true := by
  simp only [selected, List.mem_filter, List.mem_dedup, List.mem_append, and_assoc]

/-- The action of a target, read off the database before the recording. -/
theorem action_prepare (db : Db) (profile : Uuid) (row : Profile) (now : Time) (t : Target) :
    action (prepare db profile) profile row now t = action db profile row now t := by
  have prepared := prepare_prepares db profile
  unfold action currentTargets
  rw [prepared.fleet, prepared.grants]

end OperationRepository
end Controller
end NodePlane
