import NodePlane.Agent.Settings

/-! Backend node operations, serialized with profile and settings commands through
the journal: maintenance, and temporary access over the node RPC. -/
namespace NodePlane

def operationActions : List String :=
  ["bootstrap", "reinstall_keep", "reinstall_clean", "cleanup_runtime", "install_docker",
    "check_ports", "open_ports", "sync_runtime", "sync_env", "sync_xray", "regenerate_entropy"]

/-- Operations that change a runtime: refused for a runtime of another node. -/
def ownedActions : List String :=
  ["cleanup_runtime", "bootstrap", "reinstall_clean", "reinstall_keep", "sync_env", "sync_xray",
    "sync_runtime", "regenerate_entropy"]

/-- Operations whose intent is not a settings intent. -/
def bareActions : List String := ["install_docker", "sync_runtime", "cleanup_runtime"]

/-- Operations whose runner goes on to the settings path and rewrites node.env. -/
def settingsActions : List String :=
  ["bootstrap", "reinstall_keep", "reinstall_clean", "sync_env", "sync_xray"]

namespace Operation

inductive Error where
  | ownerConflict (owner : String)
  | failed (err : String)
  deriving DecidableEq

/-- `resolve_<action>` and the action it retires. -/
def resolving (action : String) : Option String :=
  if "resolve_".toList.isPrefixOf action.toList then some (String.ofList (action.toList.drop 8))
  else none

/-- The node operation intent as a settings intent. -/
def settingsIntent (intent : Json) : Json := intent.set "kind" (.str "node_settings")

/-- The checks before the journal: the action, its intent and the identity. -/
def check (p : Platform) (action commandId : String) (intent : Json) : Except Error Unit :=
  if !operationActions.contains action || !NodePlane.commandId commandId then
    .error (.failed "invalid node operation")
  else
    match intent.asObject with
    | none => .error (.failed "invalid node operation intent")
    | some map =>
      let body : Except Error Unit :=
        if bareActions.contains action then
          if Json.only map ["node_key", "command_id", "revision", "protocols", "settings"] then .ok ()
          else .error (.failed "invalid node operation intent")
        else
          match Settings.check p (settingsIntent intent) with
          | .error err => .error (.failed err)
          | .ok _ => .ok ()
      match body with
      | .error err => .error err
      | .ok () =>
        if intent.field "command_id" ≠ .str commandId then
          .error (.failed "command identity mismatch")
        else .ok ()

/-- A checked operation names its command. -/
theorem check_identity {p : Platform} {action commandId : String} {intent : Json}
    (checked : check p action commandId intent = .ok ()) :
    intent.field "command_id" = .str commandId := by
  unfold check at checked
  dsimp only at checked
  repeat' split at checked
  all_goals first | contradiction | skip
  all_goals simp_all

/-- The owner as a refusal names it. -/
def ownerName (owner : String) : String :=
  let shown := (owner.toList.filter fun c => c.isAlphanum || c ∈ ['_', '.', '-']).take 64
  if shown.isEmpty then "unknown" else String.ofList shown

/-- node.env assigns the runtime to this node; `owner` is what it reads. -/
def checkOwner (owner : Except String String) (intent : Json) : Except Error Unit :=
  match owner with
  | .error err => .error (.failed err)
  | .ok owner =>
    if intent.field "node_key" ≠ .str owner then .error (.ownerConflict (ownerName owner))
    else .ok ()

def fingerprint (p : Platform) (action : String) (intent : Json) : String :=
  p.sha256Hex (sortedDumps (Json.object [("action", .str action), ("intent", intent)]))

def retired (intent : Json) (action : String) : Json :=
  Json.object [("node_key", intent.field "node_key"), ("action", .str action),
    ("revision", intent.field "revision"), ("retired", .bool true)]

/-- What the journal decides: an answer, the retirement of the command, or its start. -/
inductive Admission where
  | replay (response : Json)
  | retire (known : Bool)
  | start

def admission (p : Platform) (action commandId : String) (intent : Json) (resolving recover : Bool)
    (j : Journal) : Except Error Admission :=
  match j.commands.lookup commandId with
  | some row =>
    if row.fingerprint ≠ fingerprint p action intent then .error (.failed "command identity conflict")
    else if resolving && (row.status = .running || row.status = .retired) then .ok (.retire true)
    else if row.status ≠ .succeeded then .error (.failed "node operation outcome is uncertain")
    else row.response.elim (.error (.failed "invalid node operation result")) (.ok ∘ .replay)
  | none =>
    if resolving then .ok (.retire false)
    else if recover then .error (.failed "node operation result not found")
    else if j.unfinished [] then .error (.failed "unfinished operation requires reconciliation")
    else .ok .start

/-- `UPDATE commands SET status = 'retired'`, or the row of a retired duplicate. -/
def retire (p : Platform) (action commandId : String) (intent : Json) (instanceId : String)
    (known : Bool) (j : Journal) : Journal :=
  if known then
    { j with commands := j.commands.alter commandId fun row => { row with status := .retired } }
  else j.insertCommand commandId ⟨fingerprint p action intent, .retired, none, instanceId⟩

def result (action : String) (intent result : Json) : Json :=
  Json.object [("node_key", intent.field "node_key"), ("action", .str action),
    ("revision", intent.field "revision"), ("result", result)]

/-- Records and runs a node operation; `resolve_<action>` retires it, and `recover`
only reads its result. -/
def command (p : Platform) (owner : Except String String) (instanceId requested commandId : String)
    (intent : Json) (recover : Bool) (outcome : Outcome Json) (reached : Bool) (node : Node) :
    Ran Error Json :=
  let isResolve := (resolving requested).isSome
  let action := (resolving requested).getD requested
  match check p action commandId intent with
  | .error err => .refuse node err
  | .ok () =>
    let owned := ownedActions.contains action && !isResolve && !recover
    match if owned then checkOwner owner intent else .ok () with
    | .error err => .refuse node err
    | .ok () =>
      if node.disabled then .refuse node (.failed "agent removal is in progress")
      else
        let journal := node.journal.commandsSchema
        match admission p action commandId intent isResolve recover journal with
        | .error err => .refuse { node with journal } err
        | .ok (.replay response) => .reply { node with journal } (.ok response)
        | .ok (.retire known) =>
          .reply { node with journal := retire p action commandId intent instanceId known journal }
            (.ok (retired intent action))
        | .ok .start =>
          let row : Command := ⟨fingerprint p action intent, .running, none, instanceId⟩
          let started := { node with journal := journal.insertCommand commandId row }
          attempt started
            (.operation action commandId intent
              (settingsActions.contains action && outcome.wrote reached)) outcome .failed fun value =>
              let record := result action intent value
              .ok (started.journal.closeCommand commandId .succeeded record, record)

end Operation

/-- What temporary access needs of the node besides the journal: the scheduler's
set-up, the mutation, the inspection of an identity, and whether expiry holds. -/
structure Temporary where
  schedule : Except String Unit
  mutate : Intent → Outcome Response
  inspect : Except String Json
  enforcementReady : Bool

namespace Temporary

/-- The unlocked read of a profile's lease. -/
def lease (j : Journal) (intent : Intent) : Except String (Option Lease) :=
  if !j.schema.file then .error "command journal: unable to open database file"
  else .ok (j.leases.lookup intent.target)

/-- The text from the first `sub` on. -/
def fromFirst (sub : List Char) : List Char → Option (List Char)
  | [] => if sub = [] then some [] else none
  | c :: cs => if sub.isPrefixOf (c :: cs) then some (c :: cs) else fromFirst sub cs

/-- The text before the first `sub`. -/
def before (sub : List Char) : List Char → List Char
  | [] => []
  | c :: cs => if sub.isPrefixOf (c :: cs) then [] else c :: before sub cs

def trim (cs : List Char) : List Char :=
  ((cs.dropWhile Char.isWhitespace).reverse.dropWhile Char.isWhitespace).reverse

/-- `str::lines`, each trimmed. -/
def lines (cs : List Char) : List (List Char) := (cs.splitOn '\n').map trim

/-- The client config and key an AWG issuance prints. -/
def awgClient (summary : String) : Except String (String × String) :=
  match fromFirst "[Interface]".toList summary.toList with
  | none => .error "AWG client config missing"
  | some config =>
    match (lines summary.toList).find? fun line => "vpn://".toList.isPrefixOf line with
    | none => .error "AWG client key missing"
    | some key =>
      .ok (String.ofList (trim (before "\n===========".toList config)), String.ofList key)

/-- The reply to a grant or a revocation, from its journaled response. -/
def reply (p : Platform) (action : String) (intent : Intent) (response : Response) :
    Except String Json :=
  match if response.payloadJson = "" then some (.obj []) else p.fromStr response.payloadJson with
  | none => .error "invalid temporary result"
  | some result =>
    if action = "temporary_ensure" then
      if !(result.field "expires_at").asStr.any (· ≠ "") then
        .error "temporary expiry receipt missing"
      else if intent.protocol = "awg" then
        match awgClient response.summary with
        | .error err => .error err
        | .ok (config, key) =>
          .ok ((result.set "wg_conf" (.str config)).set "vpn_key" (.str key))
      else .ok (result.set "xray_uuid" (.str intent.uuid))
    else .ok (result.set "revocation_mode" (.str (Profile.revocationMode intent.protocol)))

/-- The receipt of an unused grant, once neither a lease nor a peer is found. -/
def cancel (p : Platform) (instanceId : String) (intent : Intent) (t : Temporary) (opened : Node) :
    Ran String Json :=
  if (opened.journal.leases.lookup intent.target).isSome then
    .refuse opened "existing temporary lease requires reconciliation"
  else
    match t.inspect with
    | .error err => .refuse opened err
    | .ok observation =>
      if !(observation.asObject.elim false fun map => Json.only map Profile.observationKeys &&
          Profile.observationKeys.all fun key => observation.field key = .bool false) then
        .refuse opened "temporary absence is unconfirmed"
      else
        let record := Json.object [("unused_confirmed", .bool true), ("observation", observation)]
        let journal := match opened.journal.commands.lookup intent.commandId with
          | some _ => opened.journal.closeCommand intent.commandId .superseded record
          | none => opened.journal.insertCommand intent.commandId
              ⟨intent.fingerprint p, .superseded, some record, instanceId⟩
        .reply { opened with journal } (.ok record)

/-- Fences an unused grant before its cancellation is acknowledged: the superseded
receipt also fences a delayed original request. -/
def resolveUnused (p : Platform) (instanceId : String) (intent : Intent) (t : Temporary)
    (node : Node) : Ran String Json :=
  if intent.action ≠ "ensure" || !intent.leaseSeconds.any leaseDurations.contains ||
      !temporaryName intent.runtimeName then
    .refuse node "invalid temporary cancellation"
  else if node.disabled then .refuse node "agent removal is in progress"
  else
    let opened := { node with journal := node.journal.commandsSchema }
    match opened.journal.commands.lookup intent.commandId with
    | some row =>
      if row.fingerprint ≠ intent.fingerprint p then .refuse opened "command identity mismatch"
      else if row.status = .superseded then
        .reply opened (row.response.elim (.error "invalid repair record") .ok)
      else if row.status ≠ .running || row.instanceId = instanceId then
        .refuse opened "agent service restart or confirmed journal is required"
      else cancel p instanceId intent t opened
    | none => cancel p instanceId intent t opened

/-- The grant or revocation once its own checks passed; `view` is the state its
unlocked reads saw. -/
def mutation (p : Platform) (view : Node) (instanceId : String) (action : String) (intent : Intent)
    (recover : Bool) (clock : Profile.Clock) (t : Temporary) (node : Node) : Ran String Json :=
  if view.disabled then .refuse node "agent removal is in progress"
  else if recover then
    (Ran.reply node (Profile.lookup p intent clock.now view.journal)).bind (reply p action intent)
  else
    match if action = "temporary_ensure" then t.schedule else .ok () with
    | .error err => .refuse node err
    | .ok () => (Profile.apply p intent instanceId clock t.mutate node).bind (reply p action intent)

/-- Temporary access over the node RPC: grant, revoke, status and the cancellation
of an unused grant. -/
def temporary (p : Platform) (view : Node) (instanceId action commandId : String) (value : Json)
    (recover : Bool) (clock : Profile.Clock) (t : Temporary) (node : Node) : Ran String Json :=
  let bare := match value with
    | .obj members => .obj (members.filter fun m => m.1 ≠ "node_key")
    | other => other
  match Intent.parse bare with
  | .error err => .refuse node err
  | .ok intent =>
    if intent.commandId ≠ commandId then .refuse node "temporary operation is not supported"
    else if action = "temporary_resolve" then
      if !recover then .refuse node "temporary cancellation requires recovery"
      else resolveUnused p instanceId intent t node
    else if action = "temporary_status" then
      if !recover then .refuse node "temporary status is read-only"
      else
        match lease node.journal intent with
        | .error err => .refuse node err
        | .ok found =>
          match found.filter fun lease => lease.commandId = commandId with
          | none => .refuse node "temporary identity not found"
          | some lease => .reply node (.ok (Json.object
              [("expires_at", .str (p.timestamp lease.expiresAt)), ("status", status lease.status),
                ("enforcement_ready", .bool t.enforcementReady)]))
    else if action = "temporary_ensure" then
      if intent.leaseSeconds.isNone || intent.action ≠ "ensure" then
        .refuse node "temporary lease is required"
      else mutation p view instanceId action intent recover clock t node
    else if action = "temporary_revoke" then
      if intent.action ≠ "delete" || intent.leaseSeconds.isSome then
        .refuse node "invalid temporary revocation"
      else
        -- Never a permanent peer.
        match lease view.journal intent with
        | .error err => .refuse node err
        | .ok none => .refuse node "temporary identity not found"
        | .ok (some lease) =>
          if lease.status = .expired || lease.status = .revoked then
            .reply node (.ok (Json.object
              [("revocation_mode", .str (Profile.revocationMode intent.protocol))]))
          else mutation p view instanceId action intent recover clock t node
    else .refuse node "invalid temporary action"
where
  /-- The status as the journal spells it. -/
  status : LeaseStatus → Json
    | .provisioning => .str "provisioning"
    | .active => .str "active"
    | .revoking => .str "revoking"
    | .revoked => .str "revoked"
    | .expired => .str "expired"

end Temporary
end NodePlane
