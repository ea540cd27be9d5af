import Mathlib.Algebra.Group.Nat.Defs
import Mathlib.Algebra.Group.Int.Defs
import NodePlane.Library.Table
import NodePlane.Library.BTreeMap
import NodePlane.Controller.Quotas

/-! Cumulative traffic accounting from the agents' counters: first observations are
baselines, not usage; a new epoch adds its counters; outages keep the last baseline. -/
namespace NodePlane
namespace Traffic
open Library

def maxCounter : ℕ := 2 ^ 63 - 1

inductive Protocol
  | awg | xray
  deriving DecidableEq, Repr

/-- A row of usage: one protocol of a profile on a node. -/
structure Key where
  profile : ℕ
  node : ℕ
  protocol : Protocol
  deriving DecidableEq, Repr

structure Target where
  key : Key
  device : ℕ
  account : Option ℕ
  deriving DecidableEq, Repr

/-- Bytes up and down. -/
abbrev Bytes := ℕ × ℕ

/-- A pair of counters in one epoch of one identity. -/
structure Reading where
  epoch : String
  identity : String
  uplink : ℕ
  downlink : ℕ
  deriving DecidableEq, Repr

/-- What an agent answered for a target, checked. -/
structure Observation where
  reading : Reading
  inbounds : BTreeMap String Bytes

inductive Status
  | unknown | current | paused
  deriving DecidableEq, Repr

structure Usage where
  account : Option ℕ
  uplink : ℕ
  downlink : ℕ
  inbounds : BTreeMap String Bytes
  baseline : Option Reading
  trackedSince : Option String
  lastSampleAt : Option String
  status : Status
  periodMonth : Option String

/-- Counters are per device client. -/
structure Peer where
  baseline : Option Reading
  lastInbounds : BTreeMap String Bytes
  lastSampleAt : Option String
  lastActiveAt : Option String
  status : Status

/-- Node totals outlive profile ownership changes and peer retirement. -/
structure NodeTotal where
  periodMonth : String
  uplink : ℕ
  downlink : ℕ
  inbounds : BTreeMap String Bytes
  trackedSince : String
  lastSampleAt : String

structure Db where
  usage : Table Key Usage
  peers : Table (Key × ℕ) Peer
  daily : Table (String × Key) Bytes
  nodes : Table (ℕ × Protocol) NodeTotal
  periods : List Quotas.Period
  /-- The active devices of a profile that have a client of the protocol. -/
  devices : Key → List ℕ

def Bytes.add (a b : Bytes) : Bytes := (a.1 + b.1, a.2 + b.2)

/-- The stored map with the increments added. -/
def added (stored increments : BTreeMap String Bytes) : BTreeMap String Bytes :=
  BTreeMap.upsertAll (fun _ values known => Bytes.add (known.getD (0, 0)) values) stored increments

def sameRun (before after : Reading) : Bool :=
  before.epoch = after.epoch ∧ before.identity = after.identity

/-- What a counter adds over the last one: all of it after a restart. -/
def increment (same : Bool) (last value : ℕ) : ℕ :=
  if same ∧ last ≤ value then value - last else value

/-- `timestamp[:7]` and `timestamp[:10]`. -/
def firstChars (n : ℕ) (text : String) : String := String.ofList (text.toList.take n)

/-- What an observation adds to the usage. -/
def increments (baseline : Option Reading) (reading : Reading) : Bytes :=
  match baseline with
  | none => (0, 0)
  | some last =>
    (increment (sameRun last reading) last.uplink reading.uplink,
      increment (sameRun last reading) last.downlink reading.downlink)

/-- The same per inbound; one that is new counts from zero. -/
def byInbound (peer : Option Peer) (observation : Observation) : BTreeMap String Bytes :=
  match peer.bind Peer.baseline, peer with
  | some last, some peer =>
    observation.inbounds.map fun name values =>
      match peer.lastInbounds[name]? with
      | none => values
      | some before =>
        (increment (sameRun last observation.reading) before.1 values.1,
          increment (sameRun last observation.reading) before.2 values.2)
  | _, _ => ∅

namespace Db
variable (db : Db)

def baseline (key : Key) (device : ℕ) : Option Reading :=
  (db.peers.lookup (key, device)).bind Peer.baseline

/-- The month's bytes so far; a row of another month starts again. -/
def carried (key : Key) (month : String) : Bytes :=
  match db.usage.lookup key with
  | none => (0, 0)
  | some row => if row.periodMonth = some month then (row.uplink, row.downlink) else (0, 0)

/-- Whether the device was sampled at that time or later. -/
def sampled (key : Key) (device : ℕ) (timestamp : String) : Bool :=
  ((db.peers.lookup (key, device)).bind Peer.lastSampleAt).any fun last => timestamp ≤ last

/-- A peer row for the device, unknown until it is observed. -/
def addPeer (key : Key) (device : ℕ) : Db :=
  if (db.peers.lookup (key, device)).isSome then db
  else
    let row : Peer := ⟨none, ∅, none, none, .unknown⟩
    { db with peers := db.peers.put (key, device) row }

def addUsage (key : Key) (account : Option ℕ) : Db :=
  if (db.usage.lookup key).isSome then db
  else
    let row : Usage := ⟨account, 0, 0, ∅, none, none, none, .unknown, none⟩
    { db with usage := db.usage.put key row }

/-- An observation that is missing or does not fit: nothing is counted. -/
def markUnknown (key : Key) (device : ℕ) : Db :=
  { db with
    peers := db.peers.alter (key, device) fun row => { row with status := .unknown }
    usage := db.usage.alter key fun row => { row with status := .unknown } }

/-- The day's share, for charts. -/
def addDay (key : Key) (day : String) (bytes : Bytes) : Db :=
  if bytes = (0, 0) then db
  else
    let known := (db.daily.lookup (day, key)).getD (0, 0)
    { db with daily := db.daily.put (day, key) (known.add bytes) }

def addNode (key : Key) (month timestamp : String) (bytes : Bytes)
    (inbounds : BTreeMap String Bytes) : Db :=
  let row := match db.nodes.lookup (key.node, key.protocol) with
    | some row =>
      if row.periodMonth = month then
        ⟨month, row.uplink + bytes.1, row.downlink + bytes.2, added row.inbounds inbounds,
          row.trackedSince, timestamp⟩
      else ⟨month, bytes.1, bytes.2, added ∅ inbounds, timestamp, timestamp⟩
    | none => ⟨month, bytes.1, bytes.2, added ∅ inbounds, timestamp, timestamp⟩
  { db with nodes := db.nodes.put (key.node, key.protocol) row }

/-- The device's counters are the new baseline. -/
def sample (key : Key) (device : ℕ) (observation : Observation) (timestamp : String)
    (active : Bool) : Db :=
  { db with peers := db.peers.alter (key, device) fun row => { row with
    baseline := some observation.reading, lastInbounds := observation.inbounds,
    lastSampleAt := some timestamp, status := .current,
    lastActiveAt := if active then some timestamp else row.lastActiveAt } }

/-- Current while every device of the profile was observed lately. -/
def peerStatus (key : Key) (stale : String) : Status :=
  if (db.devices key).any fun device =>
    match db.peers.lookup (key, device) with
    | none => true
    | some row => row.status ≠ .current || row.lastSampleAt.all fun last => last < stale
  then .unknown else .current

end Db

section
-- Fifteen minutes before a timestamp.
variable (stale : String → String)

/-- `_record` of an observation that is counted. -/
def count (db : Db) (target : Target) (observation : Observation) (timestamp : String)
    (bytes total : Bytes) (peer : Option Peer) (previous : Option Usage) : Db :=
  let key := target.key
  let month := firstChars 7 timestamp
  let inbounds := byInbound peer observation
  let sameMonth := previous.any fun row => row.periodMonth = some month
  let periods := Quotas.accrue db.periods key.profile bytes.1 bytes.2
  let db := { db with periods := periods }
  let db := db.addDay key (firstChars 10 timestamp) bytes
  let db := db.addNode key month timestamp bytes inbounds
  let db := db.sample key target.device observation timestamp (bytes ≠ (0, 0))
  let status := db.peerStatus key (stale timestamp)
  { db with usage := db.usage.alter key fun row => { row with
      uplink := total.1
      downlink := total.2
      inbounds := added (if sameMonth then (previous.map Usage.inbounds).getD ∅ else ∅) inbounds
      baseline := some observation.reading
      trackedSince := some ((if sameMonth then previous.bind Usage.trackedSince else none).getD timestamp)
      lastSampleAt := some timestamp
      status := status
      periodMonth := some month } }

/-- `_record`: a missing observation and one that would pass the counters' range count nothing
and leave the baseline. -/
def record (db : Db) (target : Target) (observation : Option Observation) (timestamp : String) :
    Db :=
  let key := target.key
  let previous := db.usage.lookup key
  let peer := db.peers.lookup (key, target.device)
  let before := db
  let db := db.addPeer key target.device
  if before.sampled key target.device timestamp then db
  else
    let db := db.addUsage key target.account
    match observation with
    | none => db.markUnknown key target.device
    | some observation =>
      let bytes := increments (before.baseline key target.device) observation.reading
      let total := (before.carried key (firstChars 7 timestamp)).add bytes
      if maxCounter < max total.1 total.2 then db.markUnknown key target.device
      else count stale db target observation timestamp bytes total peer previous

end

/-- One call of `_record`. -/
structure Recorded where
  target : Target
  observation : Option Observation
  timestamp : String

def run (stale : String → String) (db : Db) (records : List Recorded) : Db :=
  records.foldl (fun db r => record stale db r.target r.observation r.timestamp) db

end Traffic
end NodePlane
