import NodePlane.Agent.Operation
import NodePlane.Agent.Decommission

/-! Forced recovery: an operator cancels one exact interrupted command. It never
runs VPN changes; prepare publishes a ticket and a dispatch fence, retire closes
the command with a receipt after an agent restart. -/
namespace NodePlane
namespace Force

/-- The node operations a ticket may retire. -/
def nodeActions : List String :=
  ["bootstrap", "reinstall_keep", "reinstall_clean", "cleanup_runtime", "install_docker",
    "sync_runtime", "check_ports", "open_ports", "sync_env", "sync_xray", "regenerate_entropy",
    "reconcile_access"]

inductive Kind where
  | settings | profile | node
  deriving DecidableEq

def Kind.name : Kind → String
  | .settings => "settings"
  | .profile => "profile"
  | .node => "node"

/-- A checked ticket request. -/
structure Spec where
  ticketId : String
  nodeKey : String
  commandId : String
  kind : Kind
  body : Json
  fingerprint : String
  binding : String

def uuidText (value : Json) : Except String String :=
  match value.asStr with
  | none => .error "force_invalid_request"
  | some text => if forceIdentity text then .ok text else .error "force_invalid_identity"

def protocols (list : Json) : Bool :=
  list.asArray.any fun items =>
    items.length ≤ 2 && items.all (fun item => item.asStr.any ["awg", "xray"].contains) &&
      decide items.Nodup

/-- The members a body of each kind has. -/
def validBody (kind : Kind) (intent body : Json) : Bool :=
  let members := body.asObject.getD []
  match kind with
  | .profile =>
    Json.only members Intent.keys && (body.field "protocol").asStr.any ["awg", "xray"].contains &&
      (body.field "action").asStr.any ["ensure", "delete"].contains &&
      (body.field "runtime_name").asStr.any commandId
  | .settings =>
    fields.all (Json.containsKey members) &&
      members.all (fun m => fields.contains m.1 || m.1 == "protocol_plan") &&
      body.field "kind" = .str "node_settings"
  | .node =>
    Json.only (intent.asObject.getD []) ["action", "intent"] &&
      (intent.field "action").asStr.any nodeActions.contains

/-- What node and settings bodies share. -/
def validPlan (body : Json) : Bool :=
  protocols (body.field "protocols") && (body.field "settings").asObject.isSome &&
    ((body.asObject.getD []).lookup "protocol_plan").all fun plan =>
      plan.asObject.any (fun members => Json.only members ["remove_protocols"]) &&
        protocols (plan.field "remove_protocols")

def kindOf (name : String) : Option Kind :=
  if name = "settings" then some .settings
  else if name = "profile" then some .profile
  else if name = "node" then some .node
  else none

def check (p : Platform) (spec : Json) : Except String Spec := do
  let invalid := "force_invalid_request"
  let map ← spec.asObject.elim (.error invalid) .ok
  if !Json.only map ["ticket_id", "node_key", "command_id", "kind", "intent"] then .error invalid
  let ticketId ← uuidText (spec.field "ticket_id")
  let commandId ← uuidText (spec.field "command_id")
  let node ← (spec.field "node_key").asStr.elim (.error invalid) .ok
  if !nodeKey node then .error "force_invalid_identity"
  let name ← (spec.field "kind").asStr.elim (.error invalid) .ok
  let intent := spec.field "intent"
  if intent.asObject.isNone then .error invalid
  let kind ← (kindOf name).elim (.error invalid) .ok
  let body := if kind = .node then intent.field "intent" else intent
  if body.asObject.isNone then .error "force_invalid_identity"
  if body.field "command_id" ≠ .str commandId then .error "force_invalid_identity"
  if !(body.field "revision").asI64.any (1 ≤ ·) then .error "force_invalid_revision"
  if kind ≠ .profile && body.field "node_key" ≠ .str node then .error "force_invalid_identity"
  if !validBody kind intent body then .error invalid
  if kind ≠ .profile && !validPlan body then .error invalid
  let fingerprint := p.sha256Hex (if kind = .node then sortedDumps intent else canonical intent)
  return ⟨ticketId, node, commandId, kind, body, fingerprint, p.fingerprint spec⟩

namespace Spec

def revision (s : Spec) : Int := (s.body.field "revision").asI64.getD 0

def target (s : Spec) : String × String :=
  ((s.body.field "protocol").asStr.getD "", (s.body.field "runtime_name").asStr.getD "")

def receipt (s : Spec) : Json :=
  Json.object [("ticket_id", .str s.ticketId), ("node_key", .str s.nodeKey),
    ("command_id", .str s.commandId), ("kind", .str s.kind.name), ("forced", .bool true),
    ("outcome_unknown", .bool true)]

def ticketFile (s : Spec) : String := s.ticketId ++ ".json"

def fenceFile (s : Spec) : String := "command-" ++ s.commandId ++ ".fence"

/-- The row a retired command ends in. -/
def terminal (s : Spec) : Status := if s.kind = .node then .retired else .superseded

end Spec

/-- Publishes a complete record once; an existing one must carry the same binding. -/
def publish (tickets : Library.Table String Json) (name : String) (value : Json) :
    Except String (Library.Table String Json × Json) :=
  match tickets.lookup name with
  | none => .ok (tickets.put name value, value)
  | some found =>
    if found.field "binding" ≠ value.field "binding" then .error "force_ticket_conflict"
    else .ok (tickets, found)

/-- The exact command is not closed already; `view` is the journal the unlocked
read saw. -/
def cancellable (s : Spec) (view : Journal) : Except String Unit :=
  match view.commands.lookup s.commandId with
  | none => .ok ()
  | some row =>
    if row.fingerprint ≠ s.fingerprint then .error "force_command_conflict"
    else if row.status = .succeeded then .error "force_command_already_terminal"
    else .ok ()

/-- Publishes the ticket and the dispatch fence of the command; `stopped` is a
process that ends between the two. -/
def prepare (s : Spec) (instanceId : String) (view : Journal) (stopped : Bool) (node : Node) :
    Ran String Json :=
  if instanceId = "" then .refuse node "force_instance_missing"
  else
    match cancellable s view with
    | .error err => .refuse node err
    | .ok () =>
      match publish node.tickets s.ticketFile (Json.object
          [("binding", .str s.binding), ("old_instance", .str instanceId)]) with
      | .error err => .refuse node err
      | .ok (tickets, ticket) =>
        let ticketed := { node with tickets }
        if stopped then ⟨ticketed, [], none⟩
        else
          match publish tickets s.fenceFile (Json.object [("binding", .str s.binding),
              ("command_id", .str s.commandId), ("node_key", .str s.nodeKey)]) with
          | .error err => .refuse ticketed err
          | .ok (tickets, _) => .reply { node with tickets } (.ok (Json.object
              [("ticket_id", .str s.ticketId), ("node_key", .str s.nodeKey),
                ("restart_required", .bool (ticket.field "old_instance" = .str instanceId))]))

/-- The fence a retirement advances: the node's settings, or the profile's. -/
def raise (s : Spec) (j : Journal) : Journal :=
  match s.kind with
  | .settings => j.settingsFenceSchema.raiseSettingsFence s.nodeKey ⟨s.revision, s.commandId⟩
  | .profile =>
    j.fencesSchema.raiseFence s.target ⟨s.revision, s.commandId, (s.body.field "action").asStr⟩
  | .node => j

/-- The ticket and the dispatch fence are this request's, and the agent restarted
since. -/
def ticketed (s : Spec) (instanceId : String) (tickets : Library.Table String Json) :
    Except String Unit :=
  match tickets.lookup s.ticketFile, tickets.lookup s.fenceFile with
  | some ticket, some fence =>
    if ticket.field "binding" ≠ .str s.binding || fence.field "binding" ≠ .str s.binding then
      .error "force_ticket_conflict"
    else if instanceId = "" || ticket.field "old_instance" = .str instanceId then
      .error "force_restart_required"
    else .ok ()
  | _, _ => .error "force_recovery_failed"

/-- Closes the command with a forced receipt and advances its fence, once a
restarted agent holds the journal lock; `free` tells whether nobody else does. -/
def retire (s : Spec) (instanceId : String) (free : Bool) (node : Node) : Ran String Json :=
  match ticketed s instanceId node.tickets with
  | .error err => .refuse node err
  | .ok () =>
    if !free then .refuse node "force_execution_still_running"
    else if node.disabled then .refuse node "force_agent_removal_pending"
    else
      let journal := node.journal.commandsSchema
      let opened := { node with journal }
      let closed (recorded : Journal) : Ran String Json :=
        .reply { node with journal := raise s recorded } (.ok s.receipt)
      match journal.commands.lookup s.commandId with
      | some row =>
        if row.fingerprint ≠ s.fingerprint then .refuse opened "force_command_conflict"
        else if row.status = s.terminal then
          if row.response.getD (.obj []) ≠ s.receipt then .refuse opened "force_already_retired"
          else .reply opened (.ok s.receipt)
        else if row.status ≠ .running then .refuse opened "force_command_already_terminal"
        else closed (journal.closeCommand s.commandId s.terminal s.receipt)
      | none =>
        closed (journal.insertCommand s.commandId
          ⟨s.fingerprint, s.terminal, some s.receipt, instanceId⟩)

end Force
end NodePlane
