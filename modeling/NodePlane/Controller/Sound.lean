import NodePlane.Controller.Exclusive
import NodePlane.Controller.Fences

/-! The invariants together, and the rule for showing that a transaction is a run of
changes: each change may rely on them. -/
namespace NodePlane
namespace Controller
open Library

structure Sound (db : Db) : Prop where
  numbered : Numbered db
  exclusive : Exclusive db
  revisions : Revisions db
  known : AllKnown db
  owned : Owned db
  fenced : Fenced db

section Runs
variable {locked : Bool} {allow : Fleet → Job → Prop} {db mid next : Db} {es fs : List Event}

theorem Sound.step (sound : Sound db) (change : Change locked allow db es next) : Sound next where
  numbered := sound.numbered.step change
  exclusive := sound.exclusive.step sound.numbered change
  revisions := sound.revisions.step sound.numbered change
  known := sound.known.step sound.numbered (sound.fenced.verified change) change
  owned := sound.owned.step change
  fenced := sound.fenced.step sound.numbered change

theorem Sound.steps (sound : Sound db) (run : Steps (Change locked allow) db es next) :
    Sound next :=
  run.invariant (fun held step => held.step step) sound

theorem Sound.empty : Sound Db.empty where
  numbered := ⟨⟨by simp [Db.empty], by simp [Db.empty]⟩, ⟨by simp [Db.empty], by simp [Db.empty]⟩,
    ⟨by simp [Db.empty], by simp [Db.empty]⟩, by simp [Db.empty], by simp [Db.empty],
    by simp [Db.empty]⟩
  exclusive := ⟨by simp [Db.empty], by simp [Db.empty], by simp [Db.empty], by simp [Db.empty],
    by simp [Db.empty], by simp [Db.empty]⟩
  revisions := by simp [Revisions, Db.empty]
  known := by simp [AllKnown, Db.empty]
  owned := by simp [Owned, Db.empty]
  fenced := ⟨by simp [Db.empty], by simp [Db.empty], by simp [Db.empty], by simp [Db.empty],
    by simp [Db.empty, Fleet.retired]⟩

/-- From a sound database, `next` is reached by changes. -/
def Reaches (locked : Bool) (allow : Fleet → Job → Prop) (db : Db) (es : List Event)
    (next : Db) : Prop :=
  Sound db → Steps (Change locked allow) db es next

namespace Reaches

theorem refl (db : Db) : Reaches locked allow db [] db := fun _ => Steps.refl db

theorem trans (first : Reaches locked allow db es mid) (second : Reaches locked allow mid fs next) :
    Reaches locked allow db (es ++ fs) next :=
  fun sound => (first sound).trans (second (sound.steps (first sound)))

/-- A step without events after another. -/
theorem after (first : Reaches locked allow db [] mid)
    (second : Reaches locked allow mid es next) : Reaches locked allow db es next :=
  first.trans second

/-- Events of a step before one without. -/
theorem before (first : Reaches locked allow db es mid)
    (second : Reaches locked allow mid [] next) : Reaches locked allow db es next := by
  have whole := first.trans second
  rwa [List.append_nil] at whole

theorem change (h : Sound db → Change locked allow db es next) : Reaches locked allow db es next :=
  fun sound => Steps.single (h sound)

theorem foldl {α : Type} {f : Db → α → Db} {items : List α}
    (each : ∀ db, ∀ x ∈ items, Reaches locked allow db [] (f db x)) (db : Db) :
    Reaches locked allow db [] (items.foldl f db) := by
  induction items generalizing db with
  | nil => exact refl db
  | cons x rest ih =>
    exact (each db x (List.mem_cons_self ..)).after
      (ih (fun db y listed => each db y (List.mem_cons_of_mem _ listed)) (f db x))

end Reaches

/-! Access rows. -/

namespace Access.Grows

/-- Nothing but rows outside the four tables changes. -/
theorem of_same {a : Access} {fresh : Uuid} (later : db.fresh ≤ fresh)
    (profiles : a.profiles = db.access.profiles) (devices : a.devices = db.access.devices)
    (credentials : a.credentials = db.access.credentials)
    (peers : a.retiredPeers = db.access.retiredPeers) : Access.Grows db a fresh where
  later := later
  profiles := by
    rw [profiles]
    exact fun _ p found => ⟨p, found, Nat.le_refl _⟩
  newProfiles := fun id p found => .inl (by rw [← profiles, found]; rfl)
  devices := by
    rw [devices]
    exact Table.Grows.refl Device.Le.refl _
  newDevices := fun id d found => .inl (by rw [← devices, found]; rfl)
  credentials := fun id known => by rw [credentials]; exact known
  newSlots := fun slot r found => .inl (by rw [← peers]; exact found)
  slotOwners := fun slot r found => .inl (by rw [← peers]; exact found)
  slots := fun slot r found => .inl (by rw [peers]; exact found)

/-- One profile row changes; its revision does not fall. -/
theorem alterProfile (profile : Uuid) {f : Profile → Profile}
    (rises : ∀ p, p.desiredRevision ≤ (f p).desiredRevision) :
    Access.Grows db { db.access with profiles := db.access.profiles.alter profile f }
      db.fresh where
  later := Nat.le_refl _
  profiles := Table.Grows.alter (fun p : Profile => Nat.le_refl p.desiredRevision)
    fun p _ => rises p
  newProfiles := fun id p found => by
    left
    dsimp only at found
    rw [Table.lookup_alter] at found
    split at found
    · next same =>
      obtain ⟨q, row, _⟩ := Option.map_eq_some_iff.mp found
      rw [same, row]
      rfl
    · rw [found]
      rfl
  devices := Table.Grows.refl Device.Le.refl _
  newDevices := fun id d found => .inl (by rw [found]; rfl)
  credentials := fun id known => known
  newSlots := fun slot r found => .inl found
  slotOwners := fun slot r found => .inl found
  slots := fun slot r found => .inl found

theorem putProfile (p : Profile) (unused : db.access.profiles.lookup db.fresh = none) :
    Access.Grows db { db.access with profiles := db.access.profiles.put db.fresh p }
      (db.fresh + 1) where
  later := Nat.le_succ _
  profiles := Table.Grows.put (fun p : Profile => Nat.le_refl p.desiredRevision)
    fun old found => by
      rw [unused] at found
      cases found
  newProfiles := fun id q found => by
    dsimp only at found
    rw [Table.lookup_put] at found
    split at found
    · next same => exact .inr (same ▸ Nat.lt_succ_self _)
    · exact .inl (by rw [found]; rfl)
  devices := Table.Grows.refl Device.Le.refl _
  newDevices := fun id d found => .inl (by rw [found]; rfl)
  credentials := fun id known => known
  newSlots := fun slot r found => .inl found
  slotOwners := fun slot r found => .inl found
  slots := fun slot r found => .inl found

/-- Device rows change in place. -/
theorem mapDevices {devices : Table Uuid Device}
    (grows : db.access.devices.Grows Device.Le devices)
    (old : ∀ id d, devices.lookup id = some d → (db.access.devices.lookup id).isSome = true) :
    Access.Grows db { db.access with devices := devices } db.fresh where
  later := Nat.le_refl _
  profiles := fun _ p found => ⟨p, found, Nat.le_refl _⟩
  newProfiles := fun id p found => .inl (by rw [found]; rfl)
  devices := grows
  newDevices := fun id d found => .inl (old id d found)
  credentials := fun id known => known
  newSlots := fun slot r found => .inl found
  slotOwners := fun slot r found => .inl found
  slots := fun slot r found => .inl found

end Access.Grows

theorem mapRows_known {f : Uuid → Device → Device} (id : Uuid) (d : Device)
    (found : (db.access.devices.mapRows f).lookup id = some d) :
    (db.access.devices.lookup id).isSome = true := by
  rw [Table.lookup_mapRows] at found
  obtain ⟨e, row, _⟩ := Option.map_eq_some_iff.mp found
  rw [row]
  rfl

theorem alter_known {f : Device → Device} (device id : Uuid) (d : Device)
    (found : (db.access.devices.alter device f).lookup id = some d) :
    (db.access.devices.lookup id).isSome = true := by
  rw [Table.lookup_alter] at found
  split at found
  · next same =>
    obtain ⟨e, row, _⟩ := Option.map_eq_some_iff.mp found
    rw [same, row]
    rfl
  · rw [found]
    rfl

namespace Reaches

theorem access {a : Access} (grows : Sound db → Access.Grows db a db.fresh) :
    Reaches locked allow db [] { db with access := a } :=
  change fun sound => .access (grows sound) rfl

theorem draw {a : Access} {fresh : Uuid} (grows : Sound db → Access.Grows db a fresh) :
    Reaches locked allow db [] { db with access := a, fresh := fresh } :=
  change fun sound => .access (grows sound) rfl

/-- Access rows that no task refers to. -/
theorem quiet {a : Access} (profiles : a.profiles = db.access.profiles)
    (devices : a.devices = db.access.devices)
    (credentials : a.credentials = db.access.credentials)
    (peers : a.retiredPeers = db.access.retiredPeers) :
    Reaches locked allow db [] { db with access := a } :=
  access fun _ => .of_same (Nat.le_refl _) profiles devices credentials peers

theorem operations {operations : List Operation} (kept : SameOperations db operations) :
    Reaches locked allow db [] { db with outbox.operations := operations } :=
  change fun _ => .access (.of_same (Nat.le_refl _) rfl rfl rfl rfl) kept

theorem fleet {f : Fleet} (h : Sound db → FleetChange locked allow db es f) :
    Reaches locked allow db es { db with fleet := f } :=
  change fun sound => .fleet (h sound)

end Reaches
end Runs
end Controller
end NodePlane
