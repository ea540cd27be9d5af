import Mathlib.Data.List.Sort
import Mathlib.Data.Vector.Defs
import NodePlane.Library.Table
import NodePlane.Library.History

/-! The driver's operation store: the map of operations in memory, the file that each
save replaces, and the guards of the commands that are running. -/
namespace NodePlane
namespace Driver
open Library

abbrev Bytes := List UInt8

/-- `message DriverError`. -/
structure DriverError where
  code : String
  summary : String
  detail : String
  retryable : Bool
  deriving DecidableEq, Repr

/-- `message Operation`. -/
structure Operation where
  operationId : String := ""
  kind : String := ""
  status : String := ""
  nodeKey : String := ""
  profileName : String := ""
  startedAt : String := ""
  updatedAt : String := ""
  finishedAt : String := ""
  progressMessage : String := ""
  error : Option DriverError := none
  resultJson : String := ""
  deriving DecidableEq, Repr

structure StoredOperation where
  operation : Operation := {}
  commandId : String := ""
  requestHash : Bytes := []
  deriving DecidableEq, Repr

/-- The identity of one command, as `from_request` checks it. -/
structure CommandIdentity where
  commandId : String
  requestHash : Bytes
  named : commandId ≠ ""
  digest : requestHash.length = 32

inductive Status where
  | invalidArgument (message : String)
  | alreadyExists (message : String)
  | internal (message : String)
  deriving DecidableEq, Repr

/-- `c.is_ascii_alphanumeric() || b"-_.:".contains(&c)`. -/
def commandChar (c : Char) : Bool := c.isAlphanum || c ∈ ['-', '_', '.', ':']

/-- `CommandIdentity::from_request`; a value of the header that is not text is `none`. -/
def fromRequest (sha256 : Bytes → List.Vector UInt8 32) (values : List (Option String))
    (message : Bytes) : Except Status (Option CommandIdentity) :=
  match values with
  | [] => .ok none
  | none :: _ => .error (.invalidArgument "invalid command id")
  | some commandId :: more =>
    if named : commandId = "" then
      .error (.invalidArgument "command id must be a single 1-128 character ASCII token")
    else if more ≠ [] ∨ commandId.utf8ByteSize > 128 ∨ commandId.toList.all commandChar = false then
      .error (.invalidArgument "command id must be a single 1-128 character ASCII token")
    else
      .ok (some ⟨commandId, (sha256 message).toList, named, (sha256 message).2⟩)

/-- The length-delimited encoding of one message, as the message library has it. -/
structure Codec (α : Type) where
  encode : α → Bytes
  decode : Bytes → Except String (α × Bytes)
  shorter : ∀ {bytes a rest}, decode bytes = .ok (a, rest) → rest.length < bytes.length
  decode_encode : ∀ a rest, decode (encode a ++ rest) = .ok (a, rest)

/-- The encodings of the two records a file may hold. -/
structure Format where
  operation : Codec Operation
  stored : Codec StoredOperation

def legacyFileHeader : Bytes := "NODE-PLANE-OPERATIONS-v1\n".toUTF8.toList
def fileHeader : Bytes := "NODE-PLANE-OPERATIONS-v2\n".toUTF8.toList

/-- Operations by their id. -/
abbrev Operations := Table String StoredOperation

section File
variable (format : Format)

/-- One record of the file; a legacy one has no command. -/
def readRecord (legacy : Bool) (rest : Bytes) : Except String (StoredOperation × Bytes) :=
  if legacy then (format.operation.decode rest).map fun (operation, rest) => ({ operation }, rest)
  else format.stored.decode rest

theorem readRecord_shorter {legacy : Bool} {bytes rest : Bytes} {record : StoredOperation}
    (read : readRecord format legacy bytes = .ok (record, rest)) : rest.length < bytes.length := by
  unfold readRecord at read
  split at read
  · cases decoded : format.operation.decode bytes with
    | error e => simp [decoded, Except.map] at read
    | ok pair =>
      obtain ⟨operation, after⟩ := pair
      simp only [decoded, Except.map, Except.ok.injEq, Prod.mk.injEq] at read
      exact read.2 ▸ format.operation.shorter decoded
  · exact format.stored.shorter read

/-- `while !rest.is_empty()` of `open`, with the records and command ids so far. -/
def readRecords (legacy : Bool) (rest : Bytes) (items : Operations) (commandIds : List String) :
    Except String Operations :=
  if rest = [] then .ok items
  else
    match _read : readRecord format legacy rest with
    | .error e => .error e
    | .ok (record, after) =>
      if record.commandId ≠ "" ∧
          (record.requestHash.length ≠ 32 ∨ record.commandId ∈ commandIds) then
        .error "invalid or duplicate command identity"
      else if record.operation.operationId = "" ∨
          (items.lookup record.operation.operationId).isSome then
        .error "duplicate or empty operation id"
      else
        readRecords legacy after (items.put record.operation.operationId record)
          (if record.commandId = "" then commandIds else record.commandId :: commandIds)
termination_by rest.length
decreasing_by exact readRecord_shorter format _read

/-- What `open` reads; a missing file is an empty store. -/
def readFile : Option Bytes → Except String Operations
  | none => .ok ∅
  | some bytes =>
    let legacy := legacyFileHeader.isPrefixOf bytes
    let header := if legacy then legacyFileHeader else fileHeader
    if header.isPrefixOf bytes then readRecords format legacy (bytes.drop header.length) ∅ []
    else .error "invalid operations file header"

/-- The records in the order of their ids. -/
def sorted (operations : Operations) : List StoredOperation :=
  (operations.rows.map Prod.snd).mergeSort
    fun a b => decide (a.operation.operationId ≤ b.operation.operationId)

/-- The bytes that `persist` writes. -/
def fileBytes (operations : Operations) : Bytes :=
  fileHeader ++ (sorted operations).flatMap format.stored.encode

end File

/-- How a save fails: before the rename, or after it, at the sync of the directory. -/
structure Fault where
  replaced : Bool
  error : String
  deriving DecidableEq, Repr

/-- The file at the path, and what stood there before each rename that no sync of the
directory has followed: a power loss may bring it back. -/
structure Disk where
  file : Option Bytes
  unsynced : List (Option Bytes)
  deriving DecidableEq, Repr

def Disk.versions (disk : Disk) : List (Option Bytes) := disk.file :: disk.unsynced

/-- A crash that undoes the last `lost` renames among those it can undo. -/
def Disk.crash (disk : Disk) (lost : ℕ) : Disk :=
  match disk.versions.drop lost with
  | [] => disk
  | file :: unsynced => ⟨file, unsynced⟩

def Disk.persist (format : Format) (disk : Disk) (operations : Operations) :
    Option Fault → Disk × Except String Unit
  | none => (⟨some (fileBytes format operations), []⟩, .ok ())
  | some fault =>
    (if fault.replaced then ⟨some (fileBytes format operations), disk.versions⟩ else disk,
      .error fault.error)

/-- `matches!(operation.status.as_str(), "PENDING" | "RUNNING")`. -/
def Operation.unfinished (operation : Operation) : Bool :=
  operation.status = "PENDING" ∨ operation.status = "RUNNING"

def markInterrupted (now reason : String) (operation : Operation) : Operation :=
  let progressMessage := "execution interrupted; node outcome is unknown"
  { operation with
    status := "FAILED"
    updatedAt := now
    finishedAt := now
    progressMessage
    error := some
      { code := "execution_interrupted"
        summary := progressMessage
        detail := reason ++ ". Inspect the node state before issuing another command."
        retryable := false } }

/-- The operations as `open` leaves them, with the clock at each record. -/
def recover (now : String → String) (operations : Operations) : Operations :=
  operations.mapRows fun id record =>
    if record.operation.unfinished then
      { record with
        operation := markInterrupted (now id)
          "driver restarted before recording a terminal result" record.operation }
    else record

/-- `DriverState::open`, once the lock is taken. -/
def openStore (format : Format) (now : String → String) (fault : Option Fault) (disk : Disk) :
    Disk × Except String Operations :=
  match readFile format disk.file with
  | .error e => (disk, .error e)
  | .ok operations =>
    if operations.has fun _ record => record.operation.unfinished then
      match disk.persist format (recover now operations) fault with
      | (disk, .error e) => (disk, .error e)
      | (disk, .ok ()) => (disk, .ok (recover now operations))
    else (disk, .ok operations)

/-- `save_updated`: the memory follows the file only when the save succeeds. -/
def saveUpdated (format : Format) (disk : Disk) (current updated : Operations)
    (fault : Option Fault) : Disk × Operations × Except Status Unit :=
  match disk.persist format updated fault with
  | (disk, .error e) => (disk, current, .error (.internal ("failed to persist operation: " ++ e)))
  | (disk, .ok ()) => (disk, updated, .ok ())

/-- `CommandStart`, with the guard's operation. -/
inductive CommandStart where
  | new (operation : Operation)
  | existing (operationId : String)
  deriving DecidableEq, Repr

/-- The record of a command, found by its id. -/
def findCommand (operations : Operations) (commandId : String) : Option StoredOperation :=
  (operations.rows.map Prod.snd).find? fun record => record.commandId = commandId

def beginCommand (format : Format) (disk : Disk) (current : Operations)
    (kind nodeKey profileName : String) (identity : Option CommandIdentity)
    (operationId timestamp : String) (fault : Option Fault) :
    Disk × Operations × Except Status CommandStart :=
  match identity.bind fun identity => findCommand current identity.commandId with
  | some record =>
    if record.operation.kind ≠ kind ∨ record.operation.nodeKey ≠ nodeKey ∨
        record.operation.profileName ≠ profileName ∨
        some record.requestHash ≠ identity.map CommandIdentity.requestHash then
      (disk, current, .error (.alreadyExists "command id was used with a different request"))
    else (disk, current, .ok (.existing record.operation.operationId))
  | none =>
    let operation : Operation :=
      { operationId, kind, status := "RUNNING", nodeKey, profileName, startedAt := timestamp,
        updatedAt := timestamp, progressMessage := "execution started" }
    let record : StoredOperation :=
      { operation
        commandId := (identity.map CommandIdentity.commandId).getD ""
        requestHash := (identity.map CommandIdentity.requestHash).getD [] }
    match saveUpdated format disk current (current.put operationId record) fault with
    | (disk, current, .error e) => (disk, current, .error e)
    | (disk, current, .ok ()) => (disk, current, .ok (.new operation))

/-- `put_operation`: the record keeps its command. -/
def putOperation (format : Format) (disk : Disk) (current : Operations) (operation : Operation)
    (fault : Option Fault) : Disk × Operations × Except Status Unit :=
  let record := (current.lookup operation.operationId).getD {}
  saveUpdated format disk current
    (current.put operation.operationId { record with operation }) fault

def getOperation (operations : Operations) (operationId : String) : Option Operation :=
  (operations.lookup operationId).map StoredOperation.operation

def getOperationByCommand (operations : Operations) (commandId : String) : Option Operation :=
  ((operations.rows.map Prod.snd).find? fun record =>
    record.commandId = commandId ∧ commandId ≠ "").map StoredOperation.operation

/-- What `complete` records; every caller passes a status that ends the operation. -/
structure Completion where
  status : String
  summary : String
  resultJson : String
  error : Option DriverError
  terminal : status ≠ "PENDING" ∧ status ≠ "RUNNING"

def finishWithResult (status summary resultJson : String)
    (terminal : status ≠ "PENDING" ∧ status ≠ "RUNNING") : Completion :=
  { status, summary, resultJson, error := none, terminal }

def finish (status summary : String) (terminal : status ≠ "PENDING" ∧ status ≠ "RUNNING") :
    Completion :=
  finishWithResult status summary "" terminal

def missingAgent : Completion where
  status := "FAILED"
  summary := "no node-agent target configured"
  resultJson := ""
  error := some
    { code := "agent_not_configured"
      summary := "no node-agent target configured"
      detail := "Configure the node target, then submit a new command identity."
      retryable := false }
  terminal := by decide

def failWithError (code summary : String) : Completion where
  status := "FAILED"
  summary := summary
  resultJson := ""
  error := some { code, summary, detail := "", retryable := false }
  terminal := by decide

def Completion.record (completion : Completion) (now : String) (operation : Operation) :
    Operation :=
  { operation with
    status := completion.status
    updatedAt := now
    finishedAt := now
    progressMessage := completion.summary
    resultJson := completion.resultJson
    error := completion.error }

/-- A running driver: its map, the guards whose command goes on, and the guards whose
`complete` failed and which are about to be dropped. -/
structure Process where
  operations : Operations
  running : List Operation
  ended : List Operation

structure Store where
  disk : Disk
  process : Option Process
  /-- How many operation ids have been drawn. -/
  drawn : ℕ

/-- A host where no driver has run. -/
def Store.fresh : Store where
  disk := ⟨none, []⟩
  process := none
  drawn := 0

/-- `Uuid::new_v4`: the ids drawn one after the other. -/
structure Uuids where
  draw : ℕ → String
  distinct : Function.Injective draw
  nonempty : ∀ n, draw n ≠ ""

inductive Event where
  | opened (operations : Operations)
  | openFailed (error : String)
  /-- Another driver holds the lock. -/
  | locked
  /-- `CommandStart::New` is handed out. -/
  | started (record : StoredOperation)
  | existing (operationId : String)
  | refused (status : Status)
  /-- `complete` was called to record `operation`, and whether it returned `Ok`. -/
  | completed (operation : Operation) (acknowledged : Bool)

inductive Call where
  | openStore (now : String → String) (fault : Option Fault)
  | beginCommand (kind nodeKey profileName : String) (identity : Option CommandIdentity)
      (timestamp : String) (fault : Option Fault)
  | complete (operationId : String) (completion : Completion) (now : String) (fault : Option Fault)
  | drop (operationId : String) (now : String) (fault : Option Fault)
  /-- The process ends without any guard being dropped. -/
  | crash (lost : ℕ)
  /-- The last clone of the state is dropped, after every guard. -/
  | close

section Step
variable (format : Format) (uuids : Uuids)

def Process.find (guards : List Operation) (operationId : String) : Option Operation :=
  guards.find? fun operation => operation.operationId = operationId

def without (guards : List Operation) (operationId : String) : List Operation :=
  guards.filter fun operation => operation.operationId ≠ operationId

/-- One call on the store. The lock refuses a second opening; a call without its
process or its guard cannot be made. -/
def exec (s : Store) : Call → Store × List Event
  | .openStore now fault =>
    match s.process with
    | some _ => (s, [.locked])
    | none =>
      match openStore format now fault s.disk with
      | (disk, .error e) => ({ s with disk }, [.openFailed e])
      | (disk, .ok operations) =>
        ({ s with
            disk
            process := some ⟨operations, [], []⟩ },
          [.opened operations])
  | .beginCommand kind nodeKey profileName identity timestamp fault =>
    match s.process with
    | none => (s, [])
    | some process =>
      match beginCommand format s.disk process.operations kind nodeKey profileName identity
          (uuids.draw s.drawn) timestamp fault with
      | (disk, operations, .error status) =>
        (⟨disk, some { process with operations }, s.drawn + 1⟩, [.refused status])
      | (disk, operations, .ok (.existing operationId)) =>
        (⟨disk, some { process with operations }, s.drawn + 1⟩, [.existing operationId])
      | (disk, operations, .ok (.new operation)) =>
        (⟨disk,
            some
              { process with
                operations
                running := operation :: process.running },
            s.drawn + 1⟩,
          ((operations.lookup operation.operationId).map Event.started).toList)
  | .complete operationId completion now fault =>
    match s.process with
    | none => (s, [])
    | some process =>
      match Process.find process.running operationId with
      | none => (s, [])
      | some guard =>
        let operation := completion.record now guard
        match putOperation format s.disk process.operations operation fault with
        | (disk, operations, .error _) =>
          ({ s with
              disk
              process := some
                { operations
                  running := without process.running operationId
                  ended := guard :: process.ended } },
            [.completed operation false])
        | (disk, operations, .ok ()) =>
          ({ s with
              disk
              process := some
                { process with
                  operations
                  running := without process.running operationId } },
            [.completed operation true])
  | .drop operationId now fault =>
    match s.process with
    | none => (s, [])
    | some process =>
      match Process.find (process.running ++ process.ended) operationId with
      | none => (s, [])
      | some guard =>
        let operation := markInterrupted now
          "execution ended before recording a terminal result" guard
        match putOperation format s.disk process.operations operation fault with
        | (disk, operations, _) =>
          ({ s with
              disk
              process := some
                ⟨operations, without process.running operationId,
                  without process.ended operationId⟩ },
            [])
  | .crash lost =>
    ({ s with
        disk := s.disk.crash lost
        process := none },
      [])
  | .close =>
    match s.process with
    | none => (s, [])
    | some process =>
      if process.running = [] ∧ process.ended = [] then ({ s with process := none }, [])
      else (s, [])

/-- The store after `calls` on a fresh host, and what they reported. -/
def after (calls : List Call) : Store := (run (exec format uuids) Store.fresh calls).1
def history (calls : List Call) : List Event := (run (exec format uuids) Store.fresh calls).2

end Step
end Driver
end NodePlane
