import NodePlane.Agent.Runner

/-! Applying a profile intent: the command and the profile's fence are committed
before the mutation runs; temporary identities also record their lease. -/
namespace NodePlane
namespace Profile

/-- The clock readings of one call: at its checks, at the grant's record, and
after the runner. -/
structure Clock where
  now : Int
  granted : Int
  finished : Int

/-- The profile's lease; an ensure may only meet a live lease of a temporary
intent. -/
def leaseCurrent (j : Journal) (intent : Intent) (now : Int) : Except String (Option Lease) :=
  match j.leases.lookup intent.target with
  | none => .ok none
  | some lease =>
    if intent.ensure && (lease.status ≠ .active || lease.expiresAt ≤ now) then
      .error "temporary lease is unavailable"
    else if intent.ensure && intent.leaseSeconds.isNone then
      .error "temporary identity cannot become permanent"
    else .ok (some lease)

/-- What the checks of a call decide: answer from the journal, or start. -/
inductive Admission where
  | replay (response : Response)
  | start (retryDelete leased : Bool)

/-- The checks of a command that is new or a delete's retry; `known` is the lease
a delete found first. -/
def startAdmission (intent : Intent) (now : Int) (retryDelete : Bool) (known : Option Lease)
    (j : Journal) : Except String Admission :=
  let allowed := (if retryDelete then [intent.commandId] else []) ++
    known.elim [] fun lease => [lease.commandId]
  if j.unfinished allowed then .error "unfinished execution requires operator reconciliation"
  else
    match leaseCurrent j intent now with
    | .error err => .error err
    | .ok lease =>
      if lease.isSome && intent.ensure then .error "temporary lease cannot be renewed"
      else
        match j.fences.lookup intent.target with
        | none => .ok (.start retryDelete lease.isSome)
        | some fence =>
          if intent.leaseSeconds.isSome then .error "temporary lease requires an unused identity"
          else if intent.revision ≤ fence.revision && !(retryDelete &&
              fence.revision == intent.revision && fence.commandId == intent.commandId) then
            .error "stale or conflicting revision"
          else .ok (.start retryDelete lease.isSome)

def admission (p : Platform) (intent : Intent) (now : Int) (j : Journal) : Except String Admission :=
  let known := if intent.ensure then none else j.leases.lookup intent.target
  match j.commands.lookup intent.commandId with
  | none => startAdmission intent now false known j
  | some row =>
    if row.fingerprint ≠ intent.fingerprint p then .error "command identity conflict"
    else if row.status = .succeeded then
      match leaseCurrent j intent now with
      | .error err => .error err
      | .ok _ => (Response.parse row.response).map .replay
    else if row.status = .running && !intent.ensure && known.isSome then
      startAdmission intent now true known j
    else .error "previous command did not complete successfully"

def micros (seconds : Int) : Int := seconds * 1000000

/-- The commit before the runner. The lease's conservative deadline stands before
any external change: a crash still leaves revocation work. -/
def start (p : Platform) (intent : Intent) (instanceId : String) (granted : Int)
    (retryDelete leased : Bool) (j : Journal) : Journal :=
  { j with
    commands := if retryDelete then j.commands
      else j.commands.put intent.commandId ⟨intent.fingerprint p, .running, none, instanceId⟩
    fences := j.fences.put intent.target ⟨intent.revision, intent.commandId, some intent.action⟩
    leases := match intent.leaseSeconds with
      | some seconds => j.leases.put intent.target
          ⟨intent.commandId, granted + micros seconds, .provisioning⟩
      | none => if !intent.ensure && leased then
          j.leases.alter intent.target fun lease => { lease with status := .revoking }
        else j.leases }

def revocationMode (protocol : String) : String :=
  if protocol = "xray" then "new_connections_only" else "peer_removed"

/-- The result's payload with the lease's deadline, or the runner's is no map. -/
def leasePayload (p : Platform) (intent : Intent) (expires : Int) (response : Response) :
    Except String Response :=
  let payload := if response.payloadJson = "" then some (.obj []) else p.fromStr response.payloadJson
  match payload.bind Json.asObject with
  | none => .error "invalid lease result"
  | some map =>
    let dated := Json.insertMember "expires_at" (.str (p.timestamp expires)) map
    let mode := Json.insertMember "revocation_mode" (.str (revocationMode intent.protocol)) dated
    .ok { response with payloadJson := p.toText (.obj mode) }

/-- A revocation closes the lease, and the grant it interrupted. -/
def revoke (j : Journal) (target : String × String) : Journal :=
  match j.leases.lookup target with
  | none => j
  | some lease => (j.markLease target .revoked).supersede lease.commandId

/-- The commit of the runner's result. -/
def close (p : Platform) (intent : Intent) (leased : Bool) (finished : Int) (j : Journal)
    (response : Response) : Except String (Journal × Response) :=
  match intent.leaseSeconds with
  | some seconds =>
    let expires := finished + micros seconds
    match leasePayload p intent expires response with
    | .error err => .error err
    | .ok response =>
      let leases := j.leases.alter intent.target fun lease =>
        { lease with status := .active, expiresAt := expires }
      .ok ({ j with leases }.closeCommand intent.commandId .succeeded response.toJson, response)
  | none =>
    let revoked := if !intent.ensure && leased then revoke j intent.target else j
    .ok (revoked.closeCommand intent.commandId .succeeded response.toJson, response)

/-- Records and runs `intent`; a repeated command returns its first result. -/
def apply (p : Platform) (intent : Intent) (instanceId : String) (clock : Clock)
    (runner : Intent → Outcome Response) (node : Node) : Ran String Response :=
  match intent.validate with
  | .error err => .refuse node err
  | .ok () =>
    if node.disabled then .refuse node "agent removal is in progress"
    else
      let journal := node.journal.commandsSchema.fencesSchema.leasesSchema
      match admission p intent clock.now journal with
      | .error err => .refuse { node with journal } err
      | .ok (.replay response) => .reply { node with journal } (.ok response)
      | .ok (.start retryDelete leased) =>
        let started := { node with
          journal := start p intent instanceId clock.granted retryDelete leased journal }
        attempt started (.profile (if retryDelete then .retry else .command) intent) (runner intent)
          id (close p intent leased clock.finished started.journal)

/-- The confirmed result of `intent`, read only. -/
def lookup (p : Platform) (intent : Intent) (now : Int) (j : Journal) : Except String Response :=
  match intent.validate with
  | .error err => .error err
  | .ok () =>
    if !j.schema.file then .error "command journal: unable to open database file"
    else if !j.schema.commands then .error "command journal: no such table: commands"
    else
      match j.commands.lookup intent.commandId with
      | none => .error "command success is not confirmed"
      | some row =>
        if row.fingerprint ≠ intent.fingerprint p || row.status ≠ .succeeded then
          .error "command success is not confirmed"
        else
          match leaseCurrent j intent now with
          | .error err => .error err
          | .ok _ => Response.parse row.response

/-- What a repair saw of the profile: four booleans. -/
def observationKeys : List String :=
  ["disk_present", "live_present", "identity_matches", "config_available"]

/-- An observation has exactly the boolean fields `keys`. -/
def observed (keys : List String) (observation : Json) : Bool :=
  observation.asObject.elim false fun map =>
    Json.only map keys && keys.all fun key => (observation.field key).isBool

/-- Retires an interrupted command after an agent restart, recording what
`inspection` saw live; the old mutation never runs again. -/
def resolveInterrupted (p : Platform) (intent : Intent) (instanceId : String)
    (inspection : Except String Json) (now : Int) (node : Node) : Ran String Json :=
  match intent.validate with
  | .error err => .refuse node err
  | .ok () =>
    if node.disabled then .refuse node "agent removal is in progress"
    else
      let opened := { node with journal := node.journal.openFile }
      if !opened.journal.schema.commands then .refuse opened "command journal: no such table: commands"
      else
        match opened.journal.commands.lookup intent.commandId with
        | none => .refuse opened "command identity mismatch"
        | some row =>
          if row.fingerprint ≠ intent.fingerprint p then .refuse opened "command identity mismatch"
          else if row.status = .superseded then
            .reply opened (row.response.elim (.error "invalid repair record") .ok)
          else if row.status ≠ .running then .refuse opened "command is not interrupted"
          else if instanceId = "" || row.instanceId = instanceId then
            .refuse opened "agent service restart is required before repair"
          else
            match inspection with
            | .error err => .refuse opened err
            | .ok observation =>
              if !observed observationKeys observation then
                .refuse opened "live inspection unavailable"
              else
                let record := Json.object
                  [("observation", observation), ("resolved_at", .str (p.timestamp now))]
                .reply { opened with
                  journal := opened.journal.closeCommand intent.commandId .superseded record }
                  (.ok record)

end Profile
end NodePlane
