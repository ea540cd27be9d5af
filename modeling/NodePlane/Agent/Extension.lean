import NodePlane.Agent.Runner

/-! How the journal changes: closed commands and grants' leases stay, fences only
rise. A quiet change also leaves no new command running. -/
namespace NodePlane
open Library

namespace Journal

def Running (j : Journal) (id : String) : Prop :=
  ∃ row, j.commands.lookup id = some row ∧ row.status = .running

/-- A command keeps its fingerprint, and its row once it is no longer running. -/
def Command.Le (a b : Command) : Prop :=
  b.fingerprint = a.fingerprint ∧ (a.status ≠ .running → b = a)

/-- A fence rises, or stays with its command. -/
def Fence.Le (a b : Fence) : Prop :=
  a.revision < b.revision ∨ (a.revision = b.revision ∧ a.commandId = b.commandId)

def SettingsFence.Le (a b : SettingsFence) : Prop := a.revision ≤ b.revision

/-- A lease stays with its grant. -/
def Lease.Le (a b : Lease) : Prop := b.commandId = a.commandId

structure Extends (j k : Journal) : Prop where
  commands : j.commands.Grows Command.Le k.commands
  fences : j.fences.Grows Fence.Le k.fences
  leases : j.leases.Grows Lease.Le k.leases
  settingsFence : j.settingsFence.Grows SettingsFence.Le k.settingsFence

structure Quiet (j k : Journal) : Prop extends Extends j k where
  running : ∀ id, k.Running id → j.Running id
  unleased : ∀ target, j.leases.lookup target = none → k.leases.lookup target = none

theorem Command.Le.refl (a : Command) : Command.Le a a := ⟨rfl, fun _ => rfl⟩

theorem Command.Le.trans {a b c : Command} (first : Command.Le a b) (second : Command.Le b c) :
    Command.Le a c := by
  refine ⟨second.1.trans first.1, fun closed => ?_⟩
  have middle := first.2 closed
  rw [second.2 (by rw [middle]; exact closed), middle]

theorem Fence.Le.refl (a : Fence) : Fence.Le a a := .inr ⟨rfl, rfl⟩

theorem Fence.Le.trans {a b c : Fence} (first : Fence.Le a b) (second : Fence.Le b c) :
    Fence.Le a c := by
  rcases first with less | same
  · rcases second with next | last
    · exact .inl (Int.lt_trans less next)
    · exact .inl (last.1 ▸ less)
  · rcases second with next | last
    · exact .inl (same.1 ▸ next)
    · exact .inr ⟨same.1.trans last.1, same.2.trans last.2⟩

theorem Fence.Le.revision {a b : Fence} (le : Fence.Le a b) : a.revision ≤ b.revision := by
  rcases le with less | same
  · exact Int.le_of_lt less
  · exact Int.le_of_eq same.1

theorem SettingsFence.Le.refl (a : SettingsFence) : SettingsFence.Le a a := Int.le_refl _

theorem Lease.Le.refl (a : Lease) : Lease.Le a a := rfl

theorem Extends.refl (j : Journal) : Extends j j where
  commands := Table.Grows.refl Command.Le.refl _
  fences := Table.Grows.refl Fence.Le.refl _
  leases := Table.Grows.refl Lease.Le.refl _
  settingsFence := Table.Grows.refl SettingsFence.Le.refl _

theorem Extends.trans {j k l : Journal} (first : Extends j k) (second : Extends k l) :
    Extends j l where
  commands := first.commands.trans Command.Le.trans second.commands
  fences := first.fences.trans Fence.Le.trans second.fences
  leases := first.leases.trans (fun h g => Eq.trans g h) second.leases
  settingsFence := first.settingsFence.trans Int.le_trans second.settingsFence

namespace Quiet
variable {j k l : Journal}

theorem refl (j : Journal) : Quiet j j := ⟨Extends.refl j, fun _ h => h, fun _ h => h⟩

theorem trans (first : Quiet j k) (second : Quiet k l) : Quiet j l :=
  ⟨first.toExtends.trans second.toExtends, fun id h => first.running id (second.running id h),
    fun target h => second.unleased target (first.unleased target h)⟩

/-- Only the tables that exist change. -/
theorem of_rows (same : SameRows j k) : Quiet j k := by
  obtain ⟨commands, fences, leases, settings⟩ := same
  refine ⟨⟨?_, ?_, ?_, ?_⟩, fun id h => ?_, fun target h => ?_⟩
  · exact commands ▸ Table.Grows.refl Command.Le.refl _
  · exact fences ▸ Table.Grows.refl Fence.Le.refl _
  · exact leases ▸ Table.Grows.refl Lease.Le.refl _
  · exact settings ▸ Table.Grows.refl SettingsFence.Le.refl _
  · simpa [Running, commands] using h
  · simpa [leases] using h

/-- Changing the commands alone. -/
theorem of_commands {commands : Table String Command}
    (grows : j.commands.Grows Command.Le commands)
    (running : ∀ id row, commands.lookup id = some row → row.status = .running → j.Running id) :
    Quiet j { j with commands } :=
  ⟨{ Extends.refl j with commands := grows },
    fun id ⟨row, found, status⟩ => running id row found status, fun _ h => h⟩

theorem insertCommand {id : String} {r : Command} (new : j.commands.lookup id = none)
    (closed : r.status ≠ .running) : Quiet j (j.insertCommand id r) := by
  apply of_commands
  · exact Table.Grows.put Command.Le.refl fun old h => by rw [new] at h; cases h
  · intro other found lookup status
    rw [Table.lookup_put] at lookup
    split_ifs at lookup with same
    · cases lookup
      exact absurd status closed
    · exact ⟨found, lookup, status⟩

/-- One command's row changes, and does not start to run. -/
theorem alterCommand {id : String} {f : Command → Command}
    (change : ∀ row, j.commands.lookup id = some row →
      Command.Le row (f row) ∧ ((f row).status = .running → row.status = .running)) :
    Quiet j { j with commands := j.commands.alter id f } := by
  apply of_commands
  · exact Table.Grows.alter Command.Le.refl fun old found => (change old found).1
  · intro other row lookup status
    rw [Table.lookup_alter] at lookup
    split_ifs at lookup with same
    · obtain ⟨old, found, rfl⟩ := Option.map_eq_some_iff.mp lookup
      exact ⟨old, same ▸ found, (change old found).2 status⟩
    · exact ⟨row, lookup, status⟩

/-- Closing a command that ran when the change began. -/
theorem thenClose (quiet : Quiet j k) {id : String} {status : Status} {response : Json}
    (running : j.Running id) : Quiet j (k.closeCommand id status response) := by
  refine ⟨{ quiet.toExtends with commands := ?_ }, ?_, quiet.unleased⟩
  · intro other row found
    obtain ⟨row', kept, le⟩ := quiet.commands other row found
    by_cases same : other = id
    · subst same
      obtain ⟨row'', found', status'⟩ := running
      rw [found] at found'
      cases found'
      refine ⟨{ row' with status := status, response := some response }, ?_, le.1,
        fun closed => absurd status' closed⟩
      rw [Journal.closeCommand, Table.lookup_alter, if_pos rfl, kept]
      rfl
    · exact ⟨row', by rw [Journal.closeCommand, Table.lookup_alter_ne _ same, kept], le⟩
  · rintro other ⟨row, found, status'⟩
    by_cases same : other = id
    · exact same ▸ running
    · rw [Journal.closeCommand, Table.lookup_alter_ne _ same] at found
      exact quiet.running other ⟨row, found, status'⟩

theorem closeCommand {id : String} {status : Status} {response : Json} (running : j.Running id) :
    Quiet j (j.closeCommand id status response) :=
  (refl j).thenClose running

theorem supersede (j : Journal) (id : String) : Quiet j (j.supersede id) := by
  apply alterCommand
  intro row _
  split_ifs with running
  · exact ⟨⟨rfl, fun closed => absurd running closed⟩, by simp⟩
  · exact ⟨Command.Le.refl row, fun h => h⟩

theorem setFence {target : String × String} {fence : Fence}
    (newer : ∀ old, j.fences.lookup target = some old → Fence.Le old fence) :
    Quiet j (j.setFence target fence) :=
  ⟨{ Extends.refl j with fences := Table.Grows.put Fence.Le.refl newer }, fun _ h => h,
    fun _ h => h⟩

theorem raiseFence (j : Journal) (target : String × String) (fence : Fence) :
    Quiet j (j.raiseFence target fence) := by
  unfold Journal.raiseFence
  cases found : j.fences.lookup target with
  | none => exact setFence fun old h => by rw [found] at h; cases h
  | some old =>
    simp only
    split_ifs with newer
    · refine setFence fun old' h => ?_
      rw [found] at h
      cases h
      exact .inl newer
    · exact refl j

theorem setSettingsFence {node : String} {fence : SettingsFence}
    (newer : ∀ old, j.settingsFence.lookup node = some old → old.revision ≤ fence.revision) :
    Quiet j (j.setSettingsFence node fence) :=
  ⟨{ Extends.refl j with settingsFence := Table.Grows.put SettingsFence.Le.refl newer },
    fun _ h => h, fun _ h => h⟩

theorem raiseSettingsFence (j : Journal) (node : String) (fence : SettingsFence) :
    Quiet j (j.raiseSettingsFence node fence) := by
  unfold Journal.raiseSettingsFence
  cases found : j.settingsFence.lookup node with
  | none => exact setSettingsFence fun old h => by rw [found] at h; cases h
  | some old =>
    simp only
    split_ifs with newer
    · refine setSettingsFence fun old' h => ?_
      rw [found] at h
      cases h
      exact Int.le_of_lt newer
    · exact refl j

theorem alterLease (j : Journal) (target : String × String) {f : Lease → Lease}
    (same : ∀ lease, (f lease).commandId = lease.commandId) :
    Quiet j { j with leases := j.leases.alter target f } := by
  refine ⟨{ Extends.refl j with
    leases := Table.Grows.alter Lease.Le.refl fun old _ => same old },
    fun _ h => h, fun other none => ?_⟩
  rw [Table.lookup_alter]
  split_ifs with h
  · rw [← h, none]
    rfl
  · exact none

theorem markLease (j : Journal) (target : String × String) (status : LeaseStatus) :
    Quiet j (j.markLease target status) :=
  alterLease j target fun _ => rfl

theorem mapLeases (j : Journal) {f : String × String → Lease → Lease}
    (same : ∀ target lease, (f target lease).commandId = lease.commandId) :
    Quiet j { j with leases := j.leases.mapRows f } := by
  refine ⟨{ Extends.refl j with leases := Table.Grows.mapRows same }, fun _ h => h,
    fun target none => ?_⟩
  rw [Table.lookup_mapRows, none]
  rfl

end Quiet

theorem raiseSettingsFence_schema (j : Journal) (node : String) (fence : SettingsFence) :
    (j.raiseSettingsFence node fence).schema = j.schema := by
  unfold raiseSettingsFence
  cases j.settingsFence.lookup node with
  | none => rfl
  | some old => simp only; split_ifs <;> rfl

theorem raiseFence_schema (j : Journal) (target : String × String) (fence : Fence) :
    (j.raiseFence target fence).schema = j.schema := by
  unfold raiseFence
  cases j.fences.lookup target with
  | none => rfl
  | some old => simp only; split_ifs <;> rfl

theorem unfinished_false {j : Journal} {allowed : List String} :
    j.unfinished allowed = false ↔ ∀ id, j.Running id → id ∈ allowed := by
  unfold unfinished
  rw [Table.has_false_iff]
  constructor
  · rintro free id ⟨row, found, status⟩
    have one := free id row found
    simpa [status] using one
  · intro free id row found
    by_cases status : row.status = .running
    · simpa [status] using free id ⟨row, found, status⟩
    · simp [status]

end Journal
end NodePlane
