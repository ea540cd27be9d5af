import NodePlane.Library.Table
import NodePlane.Agent.Readings

/-! The handover of an agent's journal at enrollment, file operation by file operation. The
completions of one service follow each other; their token, proof and certificates were
checked before. A digest stands for what it digests. -/
namespace NodePlane
namespace Handover
open Library Readings

/-- `SUFFIXES`: the journal and the files beside it. -/
inductive Suffix | main | wal | shm | journal | lock | disabled
  deriving DecidableEq, Repr

def suffixes : List Suffix := [.main, .wal, .shm, .journal, .lock, .disabled]

/-- What stands at a journal path: a file with its bytes, or something that is no file. -/
inductive Artifact
  | regular (content : String)
  | irregular
  deriving DecidableEq, Repr

/-- What the agent knew before the installer ran; the CA is the one whose SHA-256 it reports. -/
structure Previous where
  nodeKey : String
  controller : String
  ca : Option String
  deriving DecidableEq, Repr

structure Manifest where
  previousController : Option String
  newController : String
  previousNode : Option String
  newNode : String
  archivedAt : String
  files : List Suffix
  deriving DecidableEq, Repr

structure Archive where
  manifest : Option Manifest
  files : Suffix → Option Artifact

structure Disk where
  journal : Suffix → Option Artifact
  archives : Table String Archive
  /-- `controller-installation-id`. -/
  marker : Option String
  ca : Option String
  certificate : Option String
  token : Bool
  previousNode : Option String

structure Request where
  controller : String
  ca : String
  certificate : String
  deriving DecidableEq, Repr

/-- The file operation that a completion stands before. -/
inductive Stage
  | check
  | lock
  | collect
  | destination (files : List Suffix)
  | manifest (files : List Suffix)
  /-- Those of the journal's files that were moved, and those still to move. -/
  | move (moved rest : List Suffix)
  | record
  | storeCa
  | storeCertificate
  | removeToken
  | finish
  deriving DecidableEq, Repr

/-- A running completion, with the name that its archive will have. -/
structure Task where
  request : Request
  stamp : String
  suffix : String
  stage : Stage
  deriving DecidableEq, Repr

/-- The agent in enrollment: its disk, what its service read at start, the completion that
runs, and the requests whose controllers the marker has named, the last first. -/
structure Agent where
  disk : Disk
  service : Option Previous
  task : Option Task
  recorded : List Request

def Agent.start (disk : Disk) : Agent := ⟨disk, none, none, []⟩

def uuid (value : String) : Bool := validUuid value

/-- A file's trimmed text, empty where it cannot be read. -/
def readText (file : Option String) : String :=
  match file with
  | none => ""
  | some content => String.ofList (trim content.toList)

/-- Which of its files a starting service can read. -/
structure Readable where
  node : Bool
  marker : Bool
  ca : Bool
  deriving DecidableEq, Repr

def previous (disk : Disk) (readable : Readable) : Previous :=
  let controller := readText (if readable.marker then disk.marker else none)
  { nodeKey := readText (if readable.node then disk.previousNode else none)
    controller := if uuid controller then controller else ""
    ca := if readable.ca then disk.ca else none }

/-- Whether `controller` with `ca` is the one that had the agent. Agents of releases before
the marker are matched by their CA. -/
def Previous.sameController (previous : Previous) (controller ca : String) : Bool :=
  if previous.controller = "" then previous.ca = some ca else previous.controller = controller

/-- Nothing tells whose journal it is. -/
def Previous.unknown (previous : Previous) : Bool :=
  previous.controller = "" && previous.ca.isNone

def present (disk : Disk) : List Suffix := suffixes.filter fun x => (disk.journal x).isSome

def archiveName (previous : Previous) (task : Task) : String :=
  let owner := if previous.controller = "" then "legacy" else previous.controller
  "previous-controller-" ++ owner ++ "-" ++ task.stamp ++ "-" ++ task.suffix

/-- The file in an archive. -/
def Disk.keep (disk : Disk) (name : String) (x : Suffix) (artifact : Option Artifact) : Disk :=
  { disk with archives := disk.archives.alter name fun archive =>
      { archive with files := Function.update archive.files x artifact } }

def manifestOf (nodeKey : String) (previous : Previous) (task : Task) (files : List Suffix) :
    Manifest :=
  { previousController := if previous.controller = "" then none else some previous.controller
    newController := task.request.controller
    previousNode := if previous.nodeKey = "" then none else some previous.nodeKey
    newNode := nodeKey
    archivedAt := task.stamp
    files := files }

/-- The completion ends with its reply, an error's or the last. -/
def Agent.reply (a : Agent) : Agent := { a with task := none }

def Agent.goto (a : Agent) (task : Task) (stage : Stage) : Agent :=
  { a with task := some { task with stage := stage } }

/-- One file operation of `complete` and `hand_over` that succeeds. -/
def Agent.advance (nodeKey : String) (a : Agent) (previous : Previous) (task : Task) : Agent :=
  match task.stage with
  | .check =>
    if !uuid task.request.controller then a.reply
    else if present a.disk ≠ [] ∧
        previous.sameController task.request.controller task.request.ca = false then
      if previous.unknown then a.reply else a.goto task .lock
    else a.goto task .record
  | .lock =>
    let opened := (a.disk.journal .lock).getD (.regular "")
    let disk := { a.disk with journal := Function.update a.disk.journal .lock (some opened) }
    { a with disk := disk }.goto task .collect
  | .collect =>
    let files := present a.disk
    if files.any fun x => a.disk.journal x = some .irregular then a.reply
    else a.goto task (.destination files)
  | .destination files =>
    let name := archiveName previous task
    if (a.disk.archives.lookup name).isSome then a.reply
    else
      let archives := a.disk.archives.put name ⟨none, fun _ => none⟩
      { a with disk := { a.disk with archives := archives } }.goto task (.manifest files)
  | .manifest files =>
    let name := archiveName previous task
    let archives := a.disk.archives.alter name fun archive =>
      { archive with manifest := some (manifestOf nodeKey previous task files) }
    { a with disk := { a.disk with archives := archives } }.goto task (.move [] files)
  | .move _ [] => a.goto task .record
  | .move moved (x :: rest) =>
    let disk := a.disk.keep (archiveName previous task) x (a.disk.journal x)
    let journal := Function.update disk.journal x none
    { a with disk := { disk with journal := journal } }.goto task (.move (moved ++ [x]) rest)
  | .record =>
    let marker := task.request.controller ++ "\n"
    { a with
      disk := { a.disk with marker := some marker }
      recorded := task.request :: a.recorded }.goto task .storeCa
  | .storeCa =>
    { a with disk := { a.disk with ca := some task.request.ca } }.goto task .storeCertificate
  | .storeCertificate =>
    let disk := { a.disk with certificate := some task.request.certificate }
    { a with disk := disk }.goto task .removeToken
  | .removeToken =>
    if a.disk.token then
      { a with disk := { a.disk with token := false } }.goto task .finish
    else a.reply
  | .finish => { a with disk := { a.disk with previousNode := none } }.reply

/-- What a move across file systems that does not end leaves in the archive: nothing, or a
copy, whole or in part, of the file that still stands. -/
def Disk.torn (disk : Disk) (previous : Previous) (task : Task) (copied : Option Artifact) : Disk :=
  match task.stage with
  | .move _ (x :: _) => disk.keep (archiveName previous task) x copied
  | _ => disk

inductive Event
  /-- The service starts, while there is a token. -/
  | serve (readable : Readable)
  | complete (request : Request) (stamp suffix : String)
  | advance
  /-- The next file operation fails, and the completion with it. -/
  | fail (copied : Option Artifact)
  /-- The process ends, at any point. -/
  | crash (copied : Option Artifact)
  deriving DecidableEq, Repr

def Agent.next (nodeKey : String) (a : Agent) : Event → Agent
  | .serve readable =>
    if a.disk.token && a.service.isNone then { a with service := some (previous a.disk readable) }
    else a
  | .complete request stamp suffix =>
    if a.service.isSome && a.task.isNone then
      { a with task := some ⟨request, stamp, suffix, .check⟩ }
    else a
  | .advance =>
    match a.service, a.task with
    | some previous, some task => a.advance nodeKey previous task
    | _, _ => a
  | .fail copied =>
    match a.service, a.task with
    | some previous, some task => { a with disk := a.disk.torn previous task copied }.reply
    | _, _ => a
  | .crash copied =>
    match a.service, a.task with
    | some previous, some task =>
      { a with disk := a.disk.torn previous task copied, service := none, task := none }
    | _, _ => { a with service := none, task := none }

def Agent.run (nodeKey : String) (a : Agent) (events : List Event) : Agent :=
  events.foldl (Agent.next nodeKey) a

end Handover
end NodePlane
