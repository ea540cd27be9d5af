import Mathlib.Data.List.Sort
import NodePlane.Agent.Expiry

/-! The decommission fence, written once every profile the journal knows is
deleted; and the mutations the backend did not journal, which the fences of a
managed node refuse. -/
namespace NodePlane

/-- A lowercase hyphenated UUID. -/
def forceIdentity (value : String) : Bool :=
  value.utf8ByteSize == 36 && value.toList.zipIdx.all fun (c, index) =>
    if [8, 13, 18, 23].contains index then c == '-' else hexDigitLower c

namespace Decommission

def record (command : String) : Json :=
  Json.object [("kind", .str "decommission"), ("command_id", .str command)]

def verify (node : Node) (command : String) : Except String Json :=
  if !forceIdentity command then .error "invalid decommission command identity"
  else
    match node.marker with
    | some (.decommission owner true) =>
      if owner = command then .ok (record command)
      else .error "decommission command identity conflict"
    | _ => .error "decommission fence missing or invalid"

abbrev Row := (String × String) × Fence

/-- `ORDER BY f.protocol, f.profile`. -/
def targetBefore (a b : Row) : Prop :=
  Json.textBefore a.1.1 b.1.1 ∨ (a.1.1 = b.1.1 ∧ !Json.textBefore b.1.2 a.1.2)

instance : DecidableRel targetBefore := fun _ _ => inferInstanceAs (Decidable (_ ∨ _))

def fenced (j : Journal) : List Row := j.fences.rows.insertionSort targetBefore

def succeeded (j : Journal) (id : String) : Bool :=
  (j.commands.lookup id).any fun row => row.status == .succeeded

/-- The fence's last action is a confirmed delete. -/
def deleted (j : Journal) (fence : Fence) : Bool :=
  fence.action == some "delete" && succeeded j fence.commandId

/-- The deletes a decommission owes; every candidate is checked before the first
mutation. -/
def plan (j : Journal) (command : String) : List Row → Except String (List Intent)
  | [] => .ok []
  | (target, fence) :: rest =>
    if deleted j fence then plan j command rest
    else if !succeeded j fence.commandId then
      .error "unconfirmed historical profile blocks decommission"
    else
      let id := command ++ ":" ++ target.1 ++ ":" ++ target.2
      let intent := deleteIntent id target fence.revision
      match intent.validate with
      | .error err => .error err
      | .ok () => (plan j command rest).map (intent :: ·)

def start (p : Platform) (instanceId : String) (intent : Intent) (j : Journal) : Journal :=
  (j.insertCommand intent.commandId ⟨intent.fingerprint p, .running, none, instanceId⟩).setFence
    intent.target ⟨intent.revision, intent.commandId, some "delete"⟩

/-- Deletes one planned profile; a failure leaves its command running. -/
def revokeOne (p : Platform) (instanceId : String) (runner : Intent → Outcome Response)
    (intent : Intent) (node : Node) : Ran String Unit :=
  if (node.journal.commands.lookup intent.commandId).isSome then
    .refuse node "command journal: UNIQUE constraint failed: commands.id"
  else
    let started := { node with journal := start p instanceId intent node.journal }
    attempt started (.profile .decommission intent) (runner intent) id fun response =>
      .ok (started.journal.closeCommand intent.commandId .succeeded response.toJson, ())

def revokeAll (p : Platform) (instanceId : String) (runner : Intent → Outcome Response) :
    List Intent → Node → Ran String Unit
  | [], node => .reply node (.ok ())
  | intent :: rest, node =>
    let one := revokeOne p instanceId runner intent node
    match one.answer with
    | some (.ok ()) =>
      let later := revokeAll p instanceId runner rest one.node
      ⟨later.node, one.events ++ later.events, later.answer⟩
    | other => ⟨one.node, one.events, other⟩

/-- Deletes every profile the journal holds but has not deleted. -/
def revokeProfiles (p : Platform) (command instanceId : String)
    (runner : Intent → Outcome Response) (node : Node) : Ran String Unit :=
  let j := node.journal
  if !j.schema.commands then .refuse node "invalid command journal; decommission refused"
  else if j.unfinished [] then .refuse node "unfinished profile command blocks decommission"
  else if !j.schema.fences then .reply node (.ok ())
  else
    match plan j command (fenced j) with
    | .error err => .refuse node err
    | .ok intents => revokeAll p instanceId runner intents node

/-- The checks that stand before the fence is written. -/
def confirmed (j : Journal) : Except String Unit :=
  if !j.schema.file then .ok ()
  else if !j.schema.commands then .error "invalid command journal; decommission refused"
  else if j.unfinished [] then .error "unfinished profile command blocks decommission"
  else if j.fences.has fun _ fence => !deleted j fence then
    .error "managed profiles remain on the node"
  else .ok ()

/-- Writes the fence; `persisted` tells whether the whole record reached the disk. -/
def mark (command : String) (persisted : Bool) (node : Node) : Ran String Json :=
  let marked := { node with marker := some (.decommission command persisted) }
  if persisted then .reply marked (.ok (record command))
  else .refuse marked "cannot persist decommission fence"

/-- Fences the node for removal once every known profile is deleted; with a runner
it first deletes them. -/
def prepare (p : Platform) (command instanceId : String)
    (runner : Option (Intent → Outcome Response)) (persisted : Bool) (node : Node) :
    Ran String Json :=
  if !forceIdentity command then .refuse node "invalid decommission command identity"
  else if node.disabled then .reply node (verify node command)
  else
    let revoked : Ran String Unit :=
      match runner with
      | some runner =>
        if node.journal.schema.file then revokeProfiles p command instanceId runner node
        else .reply node (.ok ())
      | none => .reply node (.ok ())
    match revoked.answer with
    | none => ⟨revoked.node, revoked.events, none⟩
    | some (.error err) => ⟨revoked.node, revoked.events, some (.error err)⟩
    | some (.ok ()) =>
      match confirmed revoked.node.journal with
      | .error err => ⟨revoked.node, revoked.events, some (.error err)⟩
      | .ok () =>
        let marked := mark command persisted revoked.node
        ⟨marked.node, revoked.events, marked.answer⟩

end Decommission

namespace Legacy

/-- What a legacy mutation would touch. -/
inductive Target where
  | node
  | profile (protocol profile : String)

def profileName (profile : String) : Bool :=
  1 ≤ profile.utf8ByteSize && profile.utf8ByteSize ≤ 128 && !profile.toList.contains '\x00'

/-- Refuses a target the backend owns; a journal that cannot be read may hold a
fence, so it refuses. -/
def guard (node : Node) (target : Target) : Except String Unit :=
  let j := node.journal
  let owned : Except String Bool :=
    match target with
    | .node =>
      if !j.schema.fences then .error "command journal: no such table: fences"
      else .ok (j.fences.has (fun _ _ => true) || j.settingsFence.has fun _ _ => true)
    | .profile protocol profile =>
      if !(["awg", "xray"].contains protocol) || !profileName profile then
        .error "invalid legacy target"
      else if !j.schema.fences then .error "command journal: no such table: fences"
      else .ok (j.fences.lookup (protocol, profile)).isSome
  if node.disabled then .error "agent removal is in progress"
  else if !j.schema.file then .ok ()
  else
    match owned with
    | .error err => .error err
    | .ok true => .error "target is managed by the explicit backend"
    | .ok false => .ok ()

def profileScripts : List (String × String) :=
  [("xray-add-user-existing.sh", "xray"), ("xray-del-user.sh", "xray"), ("awg-add-user.sh", "awg"),
    ("awg-del-user.sh", "awg")]

def maintenanceScripts : List String :=
  ["init-xray.sh", "deploy-xray.sh", "init-awg.sh", "deploy-awg.sh", "apply-node-settings.sh",
    "regenerate-awg-entropy.sh", "sync-xray.sh"]

/-- The target of an entry point. -/
def scope (script : String) (args : List String) : Except String Target :=
  match profileScripts.lookup script with
  | some protocol =>
    let profile := args.head?.getD ""
    if profileName profile then .ok (.profile protocol profile)
    else .error "invalid profile command"
  | none =>
    if maintenanceScripts.contains script then .ok .node else .error "invalid legacy command"

/-- Runs a legacy entry point after its fence check; the journal is not touched. -/
def run (script : String) (args : List String) (outcome : Outcome String) (node : Node) :
    Ran String String :=
  match scope script args with
  | .error err => .refuse node err
  | .ok target =>
    match guard node target with
    | .error err => .refuse node err
    | .ok () => attempt node (.script script args) outcome id fun output => .ok (node.journal, output)

/-- Removal of an agent no backend owns: the tombstone stands before the uninstall
is scheduled. -/
def uninstall (node : Node) : Ran String Unit :=
  match guard node .node with
  | .error _ =>
    .refuse node "runtime is managed by the explicit backend; maintenance refused"
  | .ok () => .reply { node with marker := some .removal } (.ok ())

end Legacy
end NodePlane
