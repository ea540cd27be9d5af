import NodePlane.Driver.OperationStore
import NodePlane.Driver.Messages

/-! The runs of the operation store: each command is new once, what was acknowledged
stays, and every file it wrote can be opened again. -/
namespace NodePlane
namespace Driver
open Library

section
variable {format : Format} {uuids : Uuids} {past : List Event} {drawn : ℕ} {disk : Disk}

theorem Kept.acknowledged (kept : Kept format uuids past drawn disk) {r : StoredOperation}
    (acknowledged : Acknowledged past r) {version : Option Bytes}
    (present : version ∈ disk.versions) :
    ∃ records, readFile format version = .ok records ∧
      records.lookup r.operation.operationId = some r := by
  obtain ⟨records, written, holds⟩ := kept version present
  obtain ⟨read, ok, same⟩ := readFile_written written holds.toWellFormed
  refine ⟨read, ok, ?_⟩
  rw [same]
  exact holds.acknowledged_record acknowledged

/-- The lock is free: opening yields what `Reopened` says, unless its own save fails. -/
theorem reopen {s : Store} (sound : s.Sound format uuids past)
    (stopped : s.process = none) (now : String → String) (fault : Option Fault) :
    (∃ operations, (exec format uuids s (.openStore now fault)).2 = [.opened operations] ∧
        Reopened past operations) ∨
      ∃ failed, fault = some failed ∧
        (exec format uuids s (.openStore now fault)).2 = [.openFailed failed.error] := by
  obtain ⟨-, outcome⟩ := openStore_cases sound.kept sound.ledger now fault
  unfold exec
  rw [stopped]
  dsimp only
  generalize Driver.openStore format now fault s.disk = result at outcome
  obtain ⟨disk, answer⟩ := result
  rcases outcome with ⟨operations, rfl, holds, ended⟩ | ⟨failed, same, rfl⟩
  · exact .inl ⟨operations, rfl, holds.reopened sound.ledger ended⟩
  · exact .inr ⟨failed, same, rfl⟩

theorem Holds.known {records : Operations} (holds : Holds uuids past drawn records) {k : String}
    {record : StoredOperation} {identity : CommandIdentity} (row : records.lookup k = some record)
    (same : record.commandId = identity.commandId) :
    findCommand records identity.commandId = some record := by
  rw [findCommand_iff holds.toWellFormed identity.named, (holds.keyed row).1]
  exact ⟨row, same⟩

end

theorem operation_store (format : Format) (uuids : Uuids) (calls : List Call) :
    (newCommands (history format uuids calls)).Nodup ∧
    (∀ process, (after format uuids calls).process = some process →
      ∀ k record identity, process.operations.lookup k = some record →
        record.commandId = identity.commandId →
        ∀ disk kind nodeKey profileName operationId timestamp fault,
          Differs record kind nodeKey profileName identity →
          beginCommand format disk process.operations kind nodeKey profileName (some identity)
              operationId timestamp fault =
            (disk, process.operations,
              .error (.alreadyExists "command id was used with a different request"))) ∧
    (∀ r, Acknowledged (history format uuids calls) r →
      (∀ process, (after format uuids calls).process = some process →
        process.operations.lookup r.operation.operationId = some r) ∧
      ∀ version ∈ (after format uuids calls).disk.versions,
        ∃ records, readFile format version = .ok records ∧
          records.lookup r.operation.operationId = some r) ∧
    ((after format uuids calls).process = none → ∀ now fault,
      (∃ operations,
        (exec format uuids (after format uuids calls) (.openStore now fault)).2 =
          [.opened operations] ∧
        Reopened (history format uuids calls) operations) ∨
      ∃ failed, fault = some failed ∧
        (exec format uuids (after format uuids calls) (.openStore now fault)).2 =
          [.openFailed failed.error]) := by
  have sound := after_sound format uuids calls
  refine ⟨sound.ledger.once, ?_, ?_, ?_⟩
  · intro process running k record identity row same disk kind nodeKey profileName operationId
      timestamp fault differs
    have known := (sound.process process running).holds.known row same
    exact (beginCommand_known format disk known kind nodeKey profileName operationId timestamp
      fault).1 differs
  · intro r acknowledged
    refine ⟨fun process running => ?_, fun version present => ?_⟩
    · exact (sound.process process running).holds.acknowledged_record acknowledged
    · exact sound.kept.acknowledged acknowledged present
  · intro stopped now fault
    exact reopen sound stopped now fault

/-- Ids of growing length. -/
def unary : Uuids where
  draw n := String.ofList (List.replicate (n + 1) 'a')
  distinct n m same := by
    have lengths := congrArg String.length same
    simpa using lengths
  nonempty n empty := by
    have lengths := congrArg String.length empty
    simp at lengths

def diskFull : Fault := ⟨false, "No space left on device"⟩

/-- A driver that has handed out one command. -/
def busy : List Call :=
  [.openStore (fun _ => "09:00") none, .beginCommand "probe_node" "offline" "" none "09:01" none]

def probe : StoredOperation := newRecord "probe_node" "offline" "" none (unary.draw 0) "09:01"

/-- The recovered record cannot be saved, and the opening fails with its save. -/
theorem reopening_refused :
    ¬∀ calls now fault, (after protobuf unary calls).process = none →
      ∃ operations, (exec protobuf unary (after protobuf unary calls) (.openStore now fault)).2 =
        [.opened operations] := by
  intro claim
  have stopped : (after protobuf unary (busy ++ [.crash 0])).process = none := rfl
  obtain ⟨operations, opened⟩ := claim _ (fun _ => "09:02") (some diskFull) stopped
  have file : (after protobuf unary (busy ++ [.crash 0])).disk =
      ⟨some (fileBytes protobuf ((∅ : Operations).put (unary.draw 0) probe)), []⟩ := rfl
  have running : (after protobuf unary busy).process =
      some ⟨(∅ : Operations).put (unary.draw 0) probe, [probe.operation], []⟩ := rfl
  have holds := ((after_sound protobuf unary busy).process _ running).holds
  obtain ⟨read, ok, same⟩ := readFile_fileBytes protobuf holds.toWellFormed
  have unfinished : (read.has fun _ record => record.operation.unfinished) = true := by
    refine Table.has_iff.mpr ⟨unary.draw 0, probe, ?_, rfl⟩
    rw [same, Table.lookup_put_self]
  simp only [exec, stopped, file, openStore, ok, unfinished, Disk.persist, if_true] at opened
  cases opened

end Driver
end NodePlane
