import NodePlane.Library.Table
import NodePlane.Agent.Json

/-! The node agent's command journal beside node.env. Every command that changes
the node is recorded before its runner starts and closed with its outcome; one
lock serializes the calls, so each call is one function of the node's state. -/
namespace NodePlane
open Library

/-- What the journal's code calls outside its modules: the digest, JSON text, the
text of a time in microseconds, and the check of manual AWG parameters. -/
structure Platform where
  sha256Hex : String → String
  fromStr : String → Option Json
  toText : Json → String
  timestamp : Int → String
  awgProfile : List (String × Json) → Bool

def Platform.fingerprint (p : Platform) (v : Json) : String := p.sha256Hex (canonical v)

/-- What a mutation reports: `{summary, payload_json}`, both strings. -/
structure Response where
  summary : String
  payloadJson : String
  deriving DecidableEq

namespace Response

def ok : Response := ⟨"OK", ""⟩

def toJson (r : Response) : Json :=
  .obj [("payload_json", .str r.payloadJson), ("summary", .str r.summary)]

/-- A stored response, which must have exactly both string fields. -/
def parse (text : Option Json) : Except String Response :=
  match text.bind Json.asObject with
  | none => .error "invalid runtime result"
  | some map =>
    match map.length, map.lookup "summary", map.lookup "payload_json" with
    | 2, some (.str summary), some (.str payloadJson) => .ok ⟨summary, payloadJson⟩
    | _, _, _ => .error "invalid runtime result"

@[simp] theorem parse_toJson (r : Response) : parse (some r.toJson) = .ok r := rfl

end Response

inductive Status where
  | running | succeeded | superseded | retired
  deriving DecidableEq

/-- A row of `commands`; `response` is the value its text holds. -/
structure Command where
  fingerprint : String
  status : Status
  response : Option Json
  instanceId : String
  deriving DecidableEq

/-- A row of `fences`, under the protocol and profile; `action` is NULL in
journals from before deletion tracking. -/
structure Fence where
  revision : Int
  commandId : String
  action : Option String
  deriving DecidableEq

inductive LeaseStatus where
  | provisioning | active | revoking | revoked | expired
  deriving DecidableEq

/-- A row of `temporary_leases`, its deadline in microseconds. -/
structure Lease where
  commandId : String
  expiresAt : Int
  status : LeaseStatus
  deriving DecidableEq

/-- A row of `node_settings_fence`, under the node's key. -/
structure SettingsFence where
  revision : Int
  commandId : String
  deriving DecidableEq

/-- The tables the journal file has; an absent one holds no rows. -/
structure Schema where
  file : Bool
  commands : Bool
  fences : Bool
  leases : Bool
  settingsFence : Bool
  deriving DecidableEq

structure Journal where
  schema : Schema
  commands : Table String Command
  fences : Table (String × String) Fence
  leases : Table (String × String) Lease
  settingsFence : Table String SettingsFence

namespace Journal

def fresh : Journal := ⟨⟨false, false, false, false, false⟩, ∅, ∅, ∅, ∅⟩

/-- The rows alone: what a refused call never changes. -/
def SameRows (j k : Journal) : Prop :=
  j.commands = k.commands ∧ j.fences = k.fences ∧ j.leases = k.leases ∧
    j.settingsFence = k.settingsFence

/-- Opening the journal for writing creates its file. -/
def openFile (j : Journal) : Journal := { j with schema := { j.schema with file := true } }

def commandsSchema (j : Journal) : Journal :=
  { j with schema := { j.schema with file := true, commands := true } }

def fencesSchema (j : Journal) : Journal :=
  { j with schema := { j.schema with file := true, fences := true } }

def leasesSchema (j : Journal) : Journal :=
  { j with schema := { j.schema with file := true, leases := true } }

def settingsFenceSchema (j : Journal) : Journal :=
  { j with schema := { j.schema with file := true, settingsFence := true } }

/-- Some row other than `allowed` is running. -/
def unfinished (j : Journal) (allowed : List String) : Bool :=
  j.commands.has fun id row => row.status == .running && !allowed.contains id

def insertCommand (j : Journal) (id : String) (row : Command) : Journal :=
  { j with commands := j.commands.put id row }

/-- `UPDATE commands SET status = ?, response = ? WHERE id = ?`. -/
def closeCommand (j : Journal) (id : String) (status : Status) (response : Json) : Journal :=
  { j with commands := j.commands.alter id fun row =>
      { row with status := status, response := some response } }

/-- `UPDATE commands SET status='superseded' WHERE id = ? AND status='running'`. -/
def supersede (j : Journal) (id : String) : Journal :=
  { j with commands := j.commands.alter id fun row =>
      if row.status = .running then { row with status := .superseded } else row }

def setFence (j : Journal) (target : String × String) (fence : Fence) : Journal :=
  { j with fences := j.fences.put target fence }

def setLease (j : Journal) (target : String × String) (lease : Lease) : Journal :=
  { j with leases := j.leases.put target lease }

def markLease (j : Journal) (target : String × String) (status : LeaseStatus) : Journal :=
  { j with leases := j.leases.alter target fun lease => { lease with status := status } }

def setSettingsFence (j : Journal) (node : String) (fence : SettingsFence) : Journal :=
  { j with settingsFence := j.settingsFence.put node fence }

/-- `ON CONFLICT … DO UPDATE … WHERE excluded.revision > revision`. -/
def raiseSettingsFence (j : Journal) (node : String) (fence : SettingsFence) : Journal :=
  match j.settingsFence.lookup node with
  | some old => if old.revision < fence.revision then j.setSettingsFence node fence else j
  | none => j.setSettingsFence node fence

/-- The same for a profile's fence. -/
def raiseFence (j : Journal) (target : String × String) (fence : Fence) : Journal :=
  match j.fences.lookup target with
  | some old => if old.revision < fence.revision then j.setFence target fence else j
  | none => j.setFence target fence

end Journal

/-- Who wrote `<journal>.disabled`: a decommission command, perhaps in part only,
or the removal of an agent no backend owns. -/
inductive Marker where
  | decommission (command : String) (complete : Bool)
  | removal
  deriving DecidableEq

/-- The agent's durable state: its journal, the removal marker beside it, and the
forced recovery files by name. -/
structure Node where
  journal : Journal
  marker : Option Marker
  tickets : Table String Json

namespace Node

def fresh : Node := ⟨Journal.fresh, none, ∅⟩

def disabled (n : Node) : Bool := n.marker.isSome

end Node

end NodePlane
