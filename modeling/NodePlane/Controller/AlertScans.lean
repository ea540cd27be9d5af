import NodePlane.Controller.Database
import NodePlane.Library.History

/-! The alert monitor of the controller: what a scan takes an agent's answer for, and how the commit of a
scan changes the incidents, the notices about them and the candidates for an outage. Times are in
microseconds. -/
namespace NodePlane
namespace Controller
namespace AlertScans
open Library

def seconds (n : Int) : Int := n * 1000000
def minutes (n : Int) : Int := seconds (n * 60)
def checkSeconds : Int := 30
def repeatChoices : List Int := [0, 30, 60, 180]

/-- The alert kinds; `down` is the kind named by the protocol and `_down`. -/
inductive Kind
  | nodeUnreachable
  | down (protocol : Protocol)
  | diskLow
  | ramHigh
  | loadHigh
  | cpuHigh
  deriving DecidableEq, Repr

def Kind.all : List Kind :=
  [.nodeUnreachable, .down .awg, .down .xray, .diskLow, .ramHigh, .loadHigh, .cpuHigh]

def Kind.fast : Kind → Bool
  | .ramHigh | .loadHigh | .cpuHigh => true
  | _ => false

def Kind.fastObserved : Kind → Bool
  | .nodeUnreachable => true
  | kind => kind.fast

/-- The kind of a protocol that is not monitored on the node. -/
def Kind.unmonitored (protocols : List Protocol) : Kind → Bool
  | .down p => p ∉ protocols
  | _ => false

/-- The host metrics of an agent. A field is `none` where it is no finite number; `loadPerCpu` is the
quotient of `load1` and `cpus` where both are valid. -/
structure Metrics where
  diskFreePercent : Option Rat
  ramUsedPercent : Option Rat
  loadPerCpu : Option Rat
  cpuUsedPercent : Option Rat
  cpuSampleWindowSeconds : Option Rat
  cpuSampleAgeSeconds : Option Rat

def below (limit : Int) (value : Rat) : Bool := value.blt (Rat.ofInt limit)
def atLeast (limit : Int) (value : Rat) : Bool := !below limit value
def within (low high : Int) (value : Rat) : Bool := atLeast low value && !(Rat.ofInt high).blt value

/-- The load per CPU under which a load incident recovers: 1.5. -/
def loadRecovered : Rat := mkRat 3 2

def cpuMetrics (m : Metrics) : Option Rat :=
  (m.cpuUsedPercent.filter (within 0 100)).bind fun value =>
    (m.cpuSampleWindowSeconds.filter (within 60 75)).bind fun _ =>
      (m.cpuSampleAgeSeconds.filter (within 0 15)).map fun _ => value

def measurements (m : Metrics) : Kind → Option Rat
  | .diskLow => m.diskFreePercent.filter (within 0 100)
  | .ramHigh => m.ramUsedPercent.filter (within 0 100)
  | .loadHigh => m.loadPerCpu
  | .cpuHigh => cpuMetrics m
  | _ => none

/-- A failing condition. Only a CPU incident is ever critical. -/
structure Failure where
  value : Option Rat
  critical : Bool
  deriving DecidableEq, Repr

/-- What a scan takes an answer for: failing conditions, the kinds with a definite check, and the values
measured. -/
structure Reading where
  failures : Kind → Option Failure
  known : Kind → Bool
  cpuBelowRecovery : Bool
  measured : Kind → Option Rat

/-- An answer that says nothing. -/
def Reading.nothing : Reading := ⟨fun _ => none, fun _ => false, false, fun _ => none⟩

/-- `running` is what an inspection found of the two services, where one was available. -/
def failures (running : Protocol → Option Bool) (m : Metrics) (protocols : List Protocol) :
    Kind → Option Failure
  | .nodeUnreachable => none
  | .down p => if p ∈ protocols ∧ running p = some false then some ⟨none, false⟩ else none
  | .diskLow => ((measurements m .diskLow).filter (below 10)).map fun v => ⟨some v, false⟩
  | .ramHigh => ((measurements m .ramHigh).filter (atLeast 90)).map fun v => ⟨some v, false⟩
  | .loadHigh => ((measurements m .loadHigh).filter (atLeast 2)).map fun v => ⟨some v, false⟩
  | .cpuHigh => ((measurements m .cpuHigh).filter (atLeast 85)).map fun v => ⟨some v, atLeast 95 v⟩

def known (running : Protocol → Option Bool) (m : Metrics) (protocols : List Protocol) : Kind → Bool
  | .nodeUnreachable => true
  | .down p => p ∈ protocols && (running p).isSome
  | kind => (measurements m kind).isSome

def classify (running : Protocol → Option Bool) (m : Metrics) (protocols : List Protocol) : Reading where
  failures := failures running m protocols
  known := known running m protocols
  cpuBelowRecovery := (cpuMetrics m).any (below 80)
  measured := measurements m

/-- What the calls of one scan get from a node: its inspection, after a failed one the metrics alone, no
contact at all (unavailable, or past the deadline), or some other error. -/
inductive Answer
  | inspected (running : Protocol → Option Bool) (metrics : Metrics)
  | alive (metrics : Metrics)
  | noContact
  | failed

def observe (protocols : List Protocol) : Answer → Reading
  | .inspected running m => classify running m protocols
  | .alive m => classify (fun _ => none) m []
  | .noContact =>
    { Reading.nothing with
      failures := fun kind => if kind = .nodeUnreachable then some ⟨none, false⟩ else none
      known := fun kind => kind = .nodeUnreachable }
  | .failed => Reading.nothing

/-- The reading of a fast scan, which asks for the metrics only. -/
def observeCpu : Answer → Reading
  | .inspected _ m | .alive m =>
    let r := classify (fun _ => none) m []
    { failures := fun kind => if kind.fast then r.failures kind else none
      known := fun kind => r.known kind && kind.fastObserved
      cpuBelowRecovery := r.cpuBelowRecovery
      measured := fun kind => if kind.fast then r.measured kind else none }
  | .noContact | .failed => Reading.nothing

def isHealthyObservation (r : Reading) (kind : Kind) : Bool :=
  r.known kind && (r.failures kind).isNone &&
    match kind with
    | .cpuHigh => r.cpuBelowRecovery
    | .loadHigh => (r.measured .loadHigh).any (·.blt loadRecovered)
    | .ramHigh => (r.measured .ramHigh).any (below 85)
    | .diskLow => (r.measured .diskLow).any (atLeast 12)
    | _ => true

structure Policy where
  enabled : Bool
  intervalMinutes : Int
  notifyResolved : Bool
  repeatMinutes : Int
  choice : repeatMinutes ∈ repeatChoices

def Policy.default : Policy := ⟨false, 5, true, 60, by decide⟩

structure Changes where
  enabled : Option Bool
  intervalMinutes : Option Int
  notifyResolved : Option Bool
  repeatMinutes : Option Int

def Changes.empty (c : Changes) : Bool :=
  c.enabled.isNone && c.intervalMinutes.isNone && c.notifyResolved.isNone && c.repeatMinutes.isNone

def preferences (p : Policy) (c : Changes) : Except String Policy :=
  if c.empty || !c.intervalMinutes.all (· ∈ [3, 5, 10]) then .error "invalid_input"
  else
    if h : c.repeatMinutes.getD p.repeatMinutes ∈ repeatChoices then
      .ok ⟨c.enabled.getD p.enabled, c.intervalMinutes.getD p.intervalMinutes,
        c.notifyResolved.getD p.notifyResolved, c.repeatMinutes.getD p.repeatMinutes, h⟩
    else .error "invalid_input"

/-- The standing incident of a kind on a node. -/
structure Row where
  firstSeenAt : Int
  lastSeenAt : Int
  critical : Bool
  criticalNotified : Option Bool
  lastNotifiedAt : Option Int
  healthySince : Option Int
  deriving DecidableEq, Repr

def Row.notifiedCritical (row : Row) : Bool := row.criticalNotified.getD row.critical

structure Event where
  node : NodeKey
  kind : Kind
  resolved : Bool
  value : Option Rat
  critical : Bool
  createdAt : Int
  deriving DecidableEq, Repr

/-- Probes that failed one after another without contact. -/
structure Candidate where
  since : Int
  lastAt : Int
  deriving DecidableEq, Repr

structure Db where
  policy : Policy
  rows : NodeKey → Kind → Option Row
  events : List Event
  lastScan : Option Int
  lastCpuScan : Option Int
  reachableAt : NodeKey → Option Int
  candidate : NodeKey → Option Candidate

def Db.new : Db := ⟨Policy.default, fun _ _ => none, [], none, none, fun _ => none, fun _ => none⟩

/-- One node of a scan: what was asked of it, the answer, and whether the node still stands at the commit
as it did when the scan began. -/
structure Visit where
  node : NodeKey
  protocols : List Protocol
  answer : Answer
  stands : Bool

/-- A scan at its commit: `blocked` under maintenance or a restore, `monitorable` the nodes that still
are. -/
structure Scan where
  timestamp : Int
  cpuOnly : Bool
  visits : List Visit
  monitorable : List NodeKey
  blocked : Bool

def Scan.reading (scan : Scan) (v : Visit) : Reading :=
  if scan.cpuOnly then observeCpu v.answer else observe v.protocols v.answer

inductive Finding
  | failing | healthy | unhealthy | unknown
  deriving DecidableEq, Repr

inductive Reply
  | replied | noContact | unclear
  deriving DecidableEq, Repr

/-- What a run reports: an agent's reply and the finding for a kind, where a commit takes them into
account; an event, with the repeat interval of its policy; the end of an incident; the nodes that a commit
leaves with incidents; a node removed. -/
inductive Report
  | probed (node : NodeKey) (time : Int) (reply : Reply)
  | seen (node : NodeKey) (kind : Kind) (time : Int) (finding : Finding)
  | sent (event : Event) (repeatMinutes : Int)
  | ended (node : NodeKey) (kind : Kind) (time : Int) (recovered : Bool)
  | swept (kept : List NodeKey)
  | retired (node : NodeKey)
  deriving DecidableEq, Repr

def Report.event : Report → Option Event
  | .sent event _ => some event
  | _ => none

/-- A scan of the other speed has a newer state of the fast kinds. -/
def newerScan (s : Db) (scan : Scan) : Bool :=
  if scan.cpuOnly then s.lastScan.any fun at' => scan.timestamp < at'
  else s.lastCpuScan.any fun at' => scan.timestamp ≤ at'

/-- The kinds whose state is newer than the scan. -/
def ignored (s : Db) (scan : Scan) (node : NodeKey) (r : Reading) (kind : Kind) : Bool :=
  let later := (s.rows node kind).any fun row => scan.timestamp < row.lastSeenAt
  if kind = .nodeUnreachable then
    ((s.reachableAt node).any fun at' =>
      scan.timestamp < at' || at' = scan.timestamp && (r.failures kind).isSome) || later
  else kind.fast && (newerScan s scan || later)

def Reading.without (r : Reading) (ignored : Kind → Bool) : Reading where
  failures := fun kind => if ignored kind then none else r.failures kind
  known := fun kind => r.known kind && !ignored kind
  cpuBelowRecovery := r.cpuBelowRecovery && !ignored .cpuHigh
  measured := r.measured

def Reading.reply (r : Reading) : Reply :=
  if (r.failures .nodeUnreachable).isSome then .noContact
  else if r.known .nodeUnreachable then .replied else .unclear

/-- The candidate after one more probe without contact; a gap over three checks starts a new one. -/
def Candidate.next (timestamp : Int) (c : Option Candidate) : Candidate :=
  match c.filter fun c =>
      0 ≤ timestamp - c.lastAt && timestamp - c.lastAt ≤ seconds (checkSeconds * 3) with
  | some c => ⟨c.since, timestamp⟩
  | none => ⟨timestamp, timestamp⟩

def Candidate.confirmed (timestamp : Int) (c : Candidate) : Bool :=
  seconds checkSeconds ≤ timestamp - c.since

/-- An outage that is not confirmed is no finding at all. -/
def Reading.unconfirmed (r : Reading) : Reading :=
  { r with
    failures := fun kind => if kind = .nodeUnreachable then none else r.failures kind
    known := fun kind => r.known kind && kind ≠ .nodeUnreachable }

structure Probe where
  reachableAt : Option Int
  candidate : Option Candidate
  reading : Reading
  reports : List Report

/-- The reachability of the node; `skip` when its state is newer than the scan. -/
def probe (s : Db) (scan : Scan) (node : NodeKey) (skip : Bool) (r : Reading) : Probe :=
  if skip || scan.cpuOnly && !r.known .nodeUnreachable then
    ⟨s.reachableAt node, s.candidate node, r, []⟩
  else
    let reports := [Report.probed node scan.timestamp r.reply]
    match r.reply with
    | .replied => ⟨some scan.timestamp, none, r, reports⟩
    | .unclear => ⟨s.reachableAt node, none, r, reports⟩
    | .noContact =>
      let c := Candidate.next scan.timestamp (s.candidate node)
      ⟨s.reachableAt node, some c, if c.confirmed scan.timestamp then r else r.unconfirmed, reports⟩

/-- A critical CPU stays critical until it is below ninety. -/
def Failure.held (f : Failure) (kind : Kind) (prev : Option Row) : Failure :=
  if kind = .cpuHigh ∧ prev.any (·.critical) ∧ f.value.any (atLeast 90) then { f with critical := true }
  else f

/-- The time of the last notice; an incident stored without one has its latest event's. -/
def lastNotified (s : Db) (node : NodeKey) (kind : Kind) (row : Row) : Int :=
  row.lastNotifiedAt.getD
    (((s.events.filter fun e => e.node = node && e.kind = kind && !e.resolved).map
      (·.createdAt)).max?.getD row.firstSeenAt)

def shouldEmit (s : Db) (timestamp : Int) (node : NodeKey) (kind : Kind) (prev : Option Row)
    (f : Failure) : Bool :=
  match prev with
  | none => true
  | some row =>
    kind = .cpuHigh && !row.notifiedCritical && f.critical ||
      0 < s.policy.repeatMinutes &&
        lastNotified s node kind row + minutes s.policy.repeatMinutes ≤ timestamp

def raised (timestamp : Int) (kind : Kind) (prev : Option Row) (f : Failure) (emit : Bool) : Row where
  firstSeenAt := (prev.map (·.firstSeenAt)).getD timestamp
  lastSeenAt := timestamp
  critical := f.critical
  criticalNotified :=
    if kind = .cpuHigh then some (prev.any (·.notifiedCritical) || f.critical) else none
  lastNotifiedAt := if emit then some timestamp else prev.bind (·.lastNotifiedAt)
  healthySince := none

/-- The start of the recovery under way; two snapshots separated by an unobserved outage are not
confirmation. -/
def Row.recovering (row : Row) (timestamp : Int) : Option Int :=
  row.healthySince.filter fun _ => timestamp - row.lastSeenAt ≤ seconds (checkSeconds * 3)

/-- A healthy observation of a kind with an incident. -/
def recover (s : Db) (timestamp : Int) (node : NodeKey) (kind : Kind) (r : Reading) (row : Row) :
    Option Row × List Report :=
  let seen := Report.seen node kind timestamp .healthy
  match row.recovering timestamp with
  | none => (some { row with healthySince := some timestamp, lastSeenAt := timestamp }, [seen])
  | some since =>
    if seconds 30 ≤ timestamp - since then
      let event : Event := ⟨node, kind, true, r.measured kind, false, timestamp⟩
      (none, seen :: (if s.policy.notifyResolved then [.sent event s.policy.repeatMinutes] else []) ++
        [.ended node kind timestamp true])
    else (some { row with lastSeenAt := timestamp }, [seen])

/-- A kind that does not fail and has an incident. -/
def settle (s : Db) (scan : Scan) (v : Visit) (ignored : Kind → Bool) (r : Reading) (kind : Kind)
    (row : Row) : Option Row × List Report :=
  if ignored kind || scan.cpuOnly && !kind.fastObserved then (some row, [])
  else if kind.unmonitored v.protocols then
    (none, [.ended v.node kind scan.timestamp false])
  else if !r.known kind then
    (some { row with healthySince := none }, [.seen v.node kind scan.timestamp .unknown])
  else if isHealthyObservation r kind then recover s scan.timestamp v.node kind r row
  else
    (some { row with healthySince := none, lastSeenAt := scan.timestamp },
      [.seen v.node kind scan.timestamp .unhealthy])

def stepKind (s : Db) (scan : Scan) (v : Visit) (ignored : Kind → Bool) (r : Reading) (kind : Kind) :
    Option Row × List Report :=
  let prev := s.rows v.node kind
  match r.failures kind with
  | some failure =>
    let f := failure.held kind prev
    let emit := shouldEmit s scan.timestamp v.node kind prev f
    let event : Event := ⟨v.node, kind, false, f.value, f.critical, scan.timestamp⟩
    (some (raised scan.timestamp kind prev f emit),
      .seen v.node kind scan.timestamp .failing ::
        if emit then [.sent event s.policy.repeatMinutes] else [])
  | none =>
    match prev with
    | none => (none, [])
    | some row => settle s scan v ignored r kind row

/-- One node of a commit. -/
def visit (scan : Scan) (s : Db) (v : Visit) : Db × List Report :=
  if !v.stands then (s, [])
  else
    let skip := ignored s scan v.node (scan.reading v)
    let p := probe s scan v.node (skip .nodeUnreachable) ((scan.reading v).without skip)
    let reports := p.reports ++ Kind.all.flatMap fun kind => (stepKind s scan v skip p.reading kind).2
    ({ s with
       rows := fun node kind =>
         if node = v.node then (stepKind s scan v skip p.reading kind).1 else s.rows node kind
       events := s.events ++ reports.filterMap Report.event
       reachableAt := fun node => if node = v.node then p.reachableAt else s.reachableAt node
       candidate := fun node => if node = v.node then p.candidate else s.candidate node }, reports)

/-- The last committed scan of the same speed. -/
def Db.committed (s : Db) (cpuOnly : Bool) : Option Int := if cpuOnly then s.lastCpuScan else s.lastScan

/-- The second transaction of `scheduled`. -/
def scheduled (s : Db) (scan : Scan) : Db × List Report :=
  if scan.blocked || !s.policy.enabled ||
      (s.committed scan.cpuOnly).any fun at' => scan.timestamp ≤ at' then (s, [])
  else
    let done := run (visit scan) s scan.visits
    ({ done.1 with
       rows := fun node kind => if node ∈ scan.monitorable then done.1.rows node kind else none
       lastScan := if scan.cpuOnly then s.lastScan else some scan.timestamp
       lastCpuScan := if scan.cpuOnly then some scan.timestamp else s.lastCpuScan },
      done.2 ++ [.swept scan.monitorable])

def retireNode (s : Db) (node : NodeKey) : Db × List Report :=
  ({ s with
     rows := fun key kind => if key = node then none else s.rows key kind
     events := s.events.filter fun e => e.node ≠ node
     reachableAt := fun key => if key = node then none else s.reachableAt key
     candidate := fun key => if key = node then none else s.candidate key }, [.retired node])

inductive Call
  | scan (scan : Scan)
  | preferences (changes : Changes)
  | retire (node : NodeKey)

def exec (s : Db) : Call → Db × List Report
  | .scan scan => scheduled s scan
  | .preferences changes =>
    match preferences s.policy changes with
    | .error _ => (s, [])
    | .ok policy =>
      ({ s with policy, candidate := if policy.enabled then s.candidate else fun _ => none }, [])
  | .retire node => retireNode s node

end AlertScans
end Controller
end NodePlane
