import NodePlane.Library.ListEdit
import NodePlane.Agent.JsonOrder
import NodePlane.Agent.ForcedRecovery

/-! The fingerprint that a ticket's check computes is the one that the ordinary entry point
stored for the same request. -/
namespace NodePlane
open Library

/-! Profile intents -/

namespace Intent

/-- The keys of an intent in the order of its map. -/
def ordered (lease : Bool) : List String :=
  ["action", "command_id"] ++ (if lease then ["lease_seconds"] else []) ++
    ["protocol", "revision", "runtime_name", "short_id", "uuid"]

theorem of_elim {α : Type} {o : Option α} {err : String} {a : α}
    (ok : o.elim (.error err) Except.ok = .ok a) : o = some a := by
  cases o with
  | none => cases ok
  | some b =>
    cases ok
    rfl

/-- What a parsed intent holds. -/
structure Parsed (members : List (String × Json)) (i : Intent) : Prop where
  only : Json.only members (if i.leaseSeconds.isSome then "lease_seconds" :: keys else keys) = true
  commandId : (Json.obj members).field "command_id" = .str i.commandId
  protocol : (Json.obj members).field "protocol" = .str i.protocol
  runtimeName : (Json.obj members).field "runtime_name" = .str i.runtimeName
  revision : (Json.obj members).field "revision" = .int i.revision
  action : (Json.obj members).field "action" = .str i.action
  uuid : (Json.obj members).field "uuid" = .str i.uuid
  shortId : (Json.obj members).field "short_id" = .str i.shortId
  lease : ∀ seconds, i.leaseSeconds = some seconds →
    (Json.obj members).field "lease_seconds" = .int seconds
  inRange : ((Json.obj members).field "revision").asI64 = some i.revision
  valid : i.validate = .ok ()

theorem parse_ok {value : Json} {i : Intent} (parsed : parse value = .ok i) :
    ∃ members, value = .obj members ∧ Parsed members i := by
  unfold parse at parsed
  obtain ⟨members, object, parsed⟩ := bind_ok.mp parsed
  obtain rfl := Json.asObject_some (of_elim object)
  have text {key found : String}
      (read : ((Json.obj members).field key).asStr.elim
        (.error "invalid command identity") Except.ok = .ok found) :
      (Json.obj members).field key = .str found := Json.asStr_some.mp (of_elim read)
  refine ⟨members, rfl, ?_⟩
  dsimp only at parsed
  cases lease : Json.containsKey members "lease_seconds"
  all_goals
    simp only [lease, Bool.false_eq_true, if_false, if_true] at parsed
    split at parsed
    · cases parsed
    rename_i only
    rw [Bool.not_eq_true', Bool.not_eq_false] at only
    obtain ⟨commandId, readId, parsed⟩ := bind_ok.mp parsed
    obtain ⟨protocol, readProtocol, parsed⟩ := bind_ok.mp parsed
    obtain ⟨name, readName, parsed⟩ := bind_ok.mp parsed
    obtain ⟨revision, readRevision, parsed⟩ := bind_ok.mp parsed
    obtain ⟨action, readAction, parsed⟩ := bind_ok.mp parsed
    obtain ⟨uuid, readUuid, parsed⟩ := bind_ok.mp parsed
    obtain ⟨shortId, readShort, parsed⟩ := bind_ok.mp parsed
    obtain ⟨leaseSeconds, readLease, parsed⟩ := bind_ok.mp parsed
    obtain ⟨_, valid, parsed⟩ := bind_ok.mp parsed
    cases parsed
  · cases readLease
    exact ⟨only, text readId, text readProtocol, text readName,
      Json.asI64_some (of_elim readRevision), text readAction, text readUuid, text readShort,
      nofun, of_elim readRevision, valid⟩
  · obtain ⟨seconds, readSeconds, rfl⟩ := map_ok.mp readLease
    refine ⟨only, text readId, text readProtocol, text readName,
      Json.asI64_some (of_elim readRevision), text readAction, text readUuid, text readShort,
      fun found same => ?_, of_elim readRevision, valid⟩
    cases same
    exact Json.asI64_some (of_elim readSeconds)

/-- A parsed intent is the request it was parsed from. -/
theorem toValue_of_parse {members : List (String × Json)} {i : Intent}
    (ascending : Json.Ascending (members.map Prod.fst)) (parsed : Parsed members i) :
    Json.obj members = i.toValue := by
  have only := parsed.only
  cases lease : i.leaseSeconds with
  | none =>
    simp only [lease, Option.isSome_none, Bool.false_eq_true, if_false] at only
    have same : members =
        (ordered false).map fun key => (key, (Json.obj members).field key) :=
      Json.eq_of_only ascending only (by decide) (by decide) (by decide)
    calc Json.obj members
        = .obj ((ordered false).map fun key => (key, (Json.obj members).field key)) :=
          congrArg Json.obj same
      _ = i.toValue := by
        simp [toValue_members, ordered, lease, parsed.commandId, parsed.protocol,
          parsed.runtimeName, parsed.revision, parsed.action, parsed.uuid, parsed.shortId]
  | some seconds =>
    simp only [lease, Option.isSome_some, if_true] at only
    have same : members =
        (ordered true).map fun key => (key, (Json.obj members).field key) :=
      Json.eq_of_only ascending only (by decide) (by decide) (by decide)
    calc Json.obj members
        = .obj ((ordered true).map fun key => (key, (Json.obj members).field key)) :=
          congrArg Json.obj same
      _ = i.toValue := by
        simp [toValue_members, ordered, lease, parsed.commandId, parsed.protocol,
          parsed.runtimeName, parsed.revision, parsed.action, parsed.uuid, parsed.shortId,
          parsed.lease seconds lease]

end Intent

/-! The check of a ticket -/

namespace Force
variable {p : Platform} {ticketId node id : String} {kind : Kind} {intent : Json}

/-- The request of a ticket. -/
def request (ticketId node id : String) (kind : Kind) (intent : Json) : Json :=
  .obj [("command_id", .str id), ("intent", intent), ("kind", .str kind.name),
    ("node_key", .str node), ("ticket_id", .str ticketId)]

/-- The command in a ticket's request. -/
def bodyOf (kind : Kind) (intent : Json) : Json :=
  if kind = .node then intent.field "intent" else intent

/-- What its fingerprint hashes. -/
def payloadOf (kind : Kind) (intent : Json) : Payload :=
  if kind = .node then .operation intent else .intent intent

theorem kindOf_name (kind : Kind) : kindOf kind.name = some kind := by
  cases kind <;> rfl

/-- What a ticket's check asks of the command. -/
structure Admits (kind : Kind) (node id : String) (intent : Json) : Prop where
  object : intent.asObject.isNone = false
  body : (bodyOf kind intent).asObject.isNone = false
  command : (bodyOf kind intent).field "command_id" = .str id
  revision : ((bodyOf kind intent).field "revision").asI64.any (1 ≤ ·) = true
  node : kind ≠ .profile → (bodyOf kind intent).field "node_key" = .str node
  members : validBody kind intent (bodyOf kind intent) = true
  plan : kind ≠ .profile → validPlan (bodyOf kind intent) = true

theorem check_request (ticket : forceIdentity ticketId = true) (identity : forceIdentity id = true)
    (key : nodeKey node = true) (admits : Admits kind node id intent) :
    ∃ s, check p (request ticketId node id kind intent) = .ok s ∧ s.commandId = id ∧
      s.kind = kind ∧ s.fingerprint = p.sha256Hex (payloadOf kind intent).text := by
  obtain ⟨object, body, command, revision, named, members, plan⟩ := admits
  refine ⟨⟨ticketId, node, id, kind, bodyOf kind intent,
    p.sha256Hex (payloadOf kind intent).text,
    p.fingerprint (request ticketId node id kind intent)⟩, ?_, rfl, rfl, rfl⟩
  have listed : (request ticketId node id kind intent).asObject =
      some [("command_id", .str id), ("intent", intent), ("kind", .str kind.name),
        ("node_key", .str node), ("ticket_id", .str ticketId)] := rfl
  have only : Json.only [("command_id", .str id), ("intent", intent), ("kind", .str kind.name),
      ("node_key", .str node), ("ticket_id", .str ticketId)]
      ["ticket_id", "node_key", "command_id", "kind", "intent"] = true := rfl
  have theTicket : (request ticketId node id kind intent).field "ticket_id" = .str ticketId := rfl
  have theCommand : (request ticketId node id kind intent).field "command_id" = .str id := rfl
  have theNode : (request ticketId node id kind intent).field "node_key" = .str node := rfl
  have theKind : (request ticketId node id kind intent).field "kind" = .str kind.name := rfl
  have theIntent : (request ticketId node id kind intent).field "intent" = intent := rfl
  have uuid {text : String} (known : forceIdentity text = true) :
      uuidText (.str text) = .ok text := by
    simp [uuidText, Json.asStr, known]
  unfold check
  generalize request ticketId node id kind intent = spec at *
  simp only [listed, theTicket, theCommand, theNode, theKind, theIntent, only, uuid ticket,
    uuid identity, Json.asStr, Option.elim, key, kindOf_name, object, Bool.not_true,
    Bool.false_eq_true, if_false, bind, Except.bind]
  cases kind with
  | profile =>
    simp only [bodyOf, reduceCtorEq, if_false] at command revision members body ⊢
    simp only [body, command, revision, members, ne_eq, not_true_eq_false, decide_false,
      Bool.false_and, Bool.not_true, Bool.false_eq_true, if_false]
    rfl
  | settings =>
    simp only [bodyOf, reduceCtorEq, if_false] at command revision named members plan body ⊢
    simp only [body, command, revision, members, named (by decide), plan (by decide), ne_eq, reduceCtorEq,
      not_true_eq_false, decide_false, Bool.and_false, Bool.not_true, Bool.false_eq_true, if_false]
    rfl
  | node =>
    simp only [bodyOf, if_true] at command revision named members plan body ⊢
    simp only [body, command, revision, members, named (by decide), plan (by decide), ne_eq, reduceCtorEq,
      not_true_eq_false, decide_false, Bool.and_false, Bool.not_true, Bool.false_eq_true, if_false]
    rfl

end Force

/-! What the ordinary checks give a ticket -/

theorem commandId_of_runtimeName {name : String} (valid : runtimeName name = true) :
    commandId name = true := by
  simp only [runtimeName, commandId, matchesName, Bool.and_eq_true, decide_eq_true_eq,
    List.all_eq_true] at valid ⊢
  obtain ⟨⟨some, short⟩, allowed⟩ := valid
  refine ⟨⟨some, by omega⟩, fun c has => ?_⟩
  have := allowed c has
  simp only [Bool.or_eq_true, decide_eq_true_eq, List.mem_cons, List.not_mem_nil, or_false] at this ⊢
  tauto

namespace Intent

theorem Parsed.admits {members : List (String × Json)} {i : Intent} (parsed : Parsed members i)
    (permanent : i.leaseSeconds = none) (node : String) :
    Force.Admits .profile node i.commandId (.obj members) where
  object := rfl
  body := rfl
  command := parsed.commandId
  revision := by
    have positive := (validate_target parsed.valid).1
    simp only [Force.bodyOf, reduceCtorEq, if_false, parsed.inRange, Option.any_some,
      decide_eq_true_eq]
    omega
  node other := absurd rfl other
  members := by
    have only := parsed.only
    obtain ⟨name, protocol⟩ := validate_shape parsed.valid
    have action : ["ensure", "delete"].contains i.action = true := by
      rcases (validate_target parsed.valid).2 with ensure | delete
      · have : i.action = "ensure" := by simpa [Intent.ensure] using ensure
        simp [this]
      · simp [delete]
    simp only [permanent, Option.isSome_none, Bool.false_eq_true, if_false] at only
    simp only [Force.bodyOf, reduceCtorEq, if_false, Force.validBody, Json.asObject,
      Option.getD_some, only, parsed.protocol, parsed.action, parsed.runtimeName, Json.asStr,
      Option.any_some, protocol, action, commandId_of_runtimeName name, Bool.and_self]
  plan other := absurd rfl other

end Intent

namespace Settings
variable {p : Platform} {members : List (String × Json)} {s : Settings}

/-- The fields of a checked settings intent. -/
structure Shape (members : List (String × Json)) : Prop where
  only : Json.only members
    (if Json.containsKey members "protocol_plan" then "protocol_plan" :: fields else fields) = true
  kind : (Json.obj members).field "kind" = .str "node_settings"
  node : ((Json.obj members).field "node_key").asStr.any NodePlane.nodeKey = true
  command : ((Json.obj members).field "command_id").asStr.any NodePlane.commandId = true
  revision : ((Json.obj members).field "revision").asI64.any (fun n => 0 < n) = true
  protocols : (protocolList ((Json.obj members).field "protocols")).isSome
  plan : Json.containsKey members "protocol_plan" = true →
    ∃ list, checkPlan list ((Json.obj members).field "protocol_plan") = .ok ()
  settings : ((Json.obj members).field "settings").asObject.isSome

theorem of_throw {α : Type} {c : Prop} [Decidable c] {err : String}
    {rest : Unit → Except String α} {a : α}
    (ok : (if c then (Except.error err >>= rest) else rest ()) = .ok a) : ¬ c ∧ rest () = .ok a := by
  by_cases met : c
  · rw [if_pos met] at ok
    cases ok
  · rw [if_neg met] at ok
    exact ⟨met, ok⟩

theorem check_shape {intent : Json} (checked : Settings.check p intent = .ok s) :
    ∃ members, intent = .obj members ∧ Shape members := by
  unfold Settings.check at checked
  obtain ⟨members, object, checked⟩ := bind_ok.mp checked
  obtain rfl := Json.asObject_some (Intent.of_elim object)
  refine ⟨members, rfl, ?_⟩
  dsimp only at checked
  obtain ⟨only, checked⟩ := of_throw checked
  obtain ⟨node, checked⟩ := of_throw checked
  obtain ⟨command, checked⟩ := of_throw checked
  obtain ⟨revision, checked⟩ := of_throw checked
  obtain ⟨protocols, list, checked⟩ := bind_ok.mp checked
  have list := Intent.of_elim list
  simp only [Bool.not_eq_true', Bool.not_eq_false, Bool.or_eq_true, decide_eq_true_eq, ne_eq,
    not_or, not_not] at only node command revision
  have object {settings : List (String × Json)}
      (read : (((Json.obj members).field "settings").asObject.filter fun settings =>
        settings.all fun m => settingsKeys.contains m.1).elim
          (.error "invalid settings") Except.ok = .ok settings) :
      ((Json.obj members).field "settings").asObject.isSome := by
    rw [(Option.filter_eq_some_iff.mp (Intent.of_elim read)).1]
    rfl
  cases planned : Json.containsKey members "protocol_plan" with
  | false =>
    simp only [planned, Bool.false_eq_true, if_false] at checked
    obtain ⟨settings, read, _⟩ := bind_ok.mp checked
    exact ⟨only, node.1, node.2, command, revision, by simp [list], by simp [planned], object read⟩
  | true =>
    simp only [planned, if_true] at checked
    obtain ⟨_, plan, checked⟩ := bind_ok.mp checked
    obtain ⟨settings, read, _⟩ := bind_ok.mp checked
    exact ⟨only, node.1, node.2, command, revision, by simp [list], fun _ => ⟨_, plan⟩,
      object read⟩

end Settings

/-! Protocol lists -/

theorem protocols_read {items : List Json} {list : List String}
    (read : (items.mapM fun item => item.asStr.filter fun p => ["awg", "xray"].contains p) =
      some list) :
    items = list.map Json.str ∧ ∀ p ∈ list, ["awg", "xray"].contains p = true := by
  induction items generalizing list with
  | nil =>
    cases read
    exact ⟨rfl, by simp⟩
  | cons item items ih =>
    simp only [List.mapM_cons, Option.bind_eq_bind, Option.bind_eq_some_iff, Option.pure_def,
      Option.some.injEq, Option.filter_eq_some_iff] at read
    obtain ⟨p, ⟨text, known⟩, rest, read, rfl⟩ := read
    obtain ⟨rfl, all⟩ := ih read
    rw [Json.asStr_some.mp text]
    exact ⟨rfl, List.forall_mem_cons.mpr ⟨known, all⟩⟩

/-- A list of distinct protocols is one for a ticket's check too. -/
theorem Force.protocols_of_list {value : Json} (list : (protocolList value).isSome) :
    Force.protocols value = true := by
  unfold protocolList at list
  split at list
  · rename_i names read
    obtain ⟨items, array, read⟩ := Option.bind_eq_some_iff.mp read
    obtain ⟨rfl, known⟩ := protocols_read read
    split at list
    · rename_i distinct
      obtain ⟨short, distinct⟩ : names.length ≤ 2 ∧ names.Nodup := by simpa using distinct
      have nodup : (names.map Json.str).Nodup := by
        apply List.Nodup.map _ distinct
        intro a b same
        exact Json.str.inj same
      simp only [Force.protocols, array, Option.any_some, List.length_map, Bool.and_eq_true,
        decide_eq_true_eq, List.all_eq_true, List.mem_map]
      refine ⟨⟨short, ?_⟩, nodup⟩
      rintro item ⟨p, has, rfl⟩
      exact known p has
    · cases list
  · cases list

namespace Settings
variable {p : Platform} {members : List (String × Json)} {s : Settings}

/-- The plan of a settings intent, as a ticket checks it. -/
theorem Shape.validPlan (shape : Shape members) : Force.validPlan (.obj members) = true := by
  have listed : (Json.obj members).asObject = some members := rfl
  simp only [Force.validPlan, Force.protocols_of_list shape.protocols, shape.settings,
    Bool.true_and, listed, Option.getD_some]
  cases found : members.lookup "protocol_plan" with
  | none => rfl
  | some plan =>
    obtain ⟨list, checked⟩ := shape.plan (by simp [Json.containsKey, found])
    have read : (Json.obj members).field "protocol_plan" = plan := by simp [Json.field, found]
    rw [read] at checked
    unfold checkPlan at checked
    split at checked
    · cases checked
    rename_i map filtered
    obtain ⟨object, only⟩ := Option.filter_eq_some_iff.mp filtered
    split at checked
    · cases checked
    rename_i removed read
    have removal : Force.protocols (plan.field "remove_protocols") = true :=
      Force.protocols_of_list (by simp [read])
    simp only [Option.all_some, object, Option.any_some, only, removal, Bool.and_self]

theorem Shape.member (shape : Shape members) {m : String × Json} (listed : m ∈ members) :
    m.1 ∈ fields ∨ m.1 = "protocol_plan" := by
  have has : m.1 ∈ members.map Prod.fst := List.mem_map_of_mem listed
  have only := shape.only
  split at only
  · have := (Json.only_perm only (by decide)).mem_iff.mpr has
    rcases List.mem_cons.mp this with plan | field
    · exact .inr plan
    · exact .inl field
  · exact .inl ((Json.only_perm only (by decide)).mem_iff.mpr has)

theorem Shape.known (shape : Shape members) {key : String} (field : key ∈ fields) :
    Json.containsKey members key = true := by
  have only := shape.only
  simp only [Json.only, Bool.and_eq_true, List.all_eq_true] at only
  apply only.2
  split
  · exact List.mem_cons_of_mem _ field
  · exact field

/-- A checked settings intent passes a ticket's check. -/
theorem admits {intent : Json} (checked : Settings.check p intent = .ok s) :
    Force.Admits .settings s.nodeKey s.commandId intent ∧ NodePlane.nodeKey s.nodeKey = true := by
  obtain ⟨value, identity, _⟩ := check_identity checked
  obtain ⟨members, rfl, shape⟩ := check_shape checked
  obtain ⟨node, isNode, key⟩ := (Option.any_eq_true _ _).mp shape.node
  have named : s.nodeKey = node := by simp [Settings.nodeKey, value, isNode]
  rw [named]
  refine ⟨⟨rfl, rfl, Json.asStr_some.mp identity, ?_, fun _ => Json.asStr_some.mp isNode, ?_,
    fun _ => shape.validPlan⟩, key⟩
  · obtain ⟨n, integer, positive⟩ := (Option.any_eq_true _ _).mp shape.revision
    simp only [decide_eq_true_eq] at positive
    simp only [Force.bodyOf, reduceCtorEq, if_false, integer, Option.any_some, decide_eq_true_eq]
    omega
  · have listed : (Json.obj members).asObject = some members := rfl
    simp only [Force.bodyOf, reduceCtorEq, if_false, Force.validBody, listed, Option.getD_some,
      shape.kind, decide_true, Bool.and_true, Bool.and_eq_true, List.all_eq_true]
    refine ⟨fun key field => shape.known field, fun m has => ?_⟩
    rcases shape.member has with field | plan
    · simp [field]
    · simp [plan]

end Settings

/-! Node operations -/

namespace Operation
variable {p : Platform} {action id : String} {intent : Json}

/-- What the bare operations leave unchecked, and a ticket's check asks of them. -/
structure Plain (node : String) (intent : Json) : Prop where
  key : nodeKey node = true
  named : intent.field "node_key" = .str node
  revision : (intent.field "revision").asI64.any (1 ≤ ·) = true
  plan : Force.validPlan intent = true

/-- The node operation as a ticket carries it. -/
def request (action : String) (intent : Json) : Json :=
  .obj [("action", .str action), ("intent", intent)]

theorem check_body (checked : check p action id intent = .ok ()) :
    operationActions.contains action = true ∧ intent.asObject.isNone = false ∧
      (bareActions.contains action = false →
        ∃ s, Settings.check p (settingsIntent intent) = .ok s) := by
  unfold check at checked
  split at checked
  · cases checked
  rename_i known
  simp only [Bool.or_eq_true, Bool.not_eq_true', not_or, Bool.not_eq_false] at known
  split at checked
  · cases checked
  rename_i members object
  refine ⟨known.1, by simp [object], fun bare => ?_⟩
  simp only [bare, Bool.false_eq_true, if_false] at checked
  cases settings : Settings.check p (settingsIntent intent) with
  | error err => simp [settings] at checked
  | ok s => exact ⟨s, rfl⟩

/-- The other operations have it checked. -/
theorem plain_of_settings {s : Settings} (object : intent.asObject.isNone = false)
    (checked : Settings.check p (settingsIntent intent) = .ok s) :
    Plain s.nodeKey intent := by
  obtain ⟨admits, key⟩ := Settings.admits checked
  cases intent with
  | obj members =>
    have other {key : String} (other : key ≠ "kind") :
        (settingsIntent (.obj members)).field key = (Json.obj members).field key := by
      simp [settingsIntent, Json.set, Json.field, Json.lookup_insertMember, other]
    refine ⟨key, ?_, ?_, ?_⟩
    · exact (other (by decide)).symm.trans (admits.node (by decide))
    · have revision := admits.revision
      simp only [Force.bodyOf, reduceCtorEq, if_false] at revision
      rwa [other (by decide)] at revision
    · have plan := admits.plan (by decide)
      simp only [Force.bodyOf, reduceCtorEq, if_false, Force.validPlan,
        other (show "protocols" ≠ "kind" by decide), other (show "settings" ≠ "kind" by decide)] at plan
      have same : ((settingsIntent (.obj members)).asObject.getD []).lookup "protocol_plan" =
          ((Json.obj members).asObject.getD []).lookup "protocol_plan" := by
        simp [settingsIntent, Json.set, Json.asObject, Json.lookup_insertMember]
      rwa [same] at plan
  | _ => cases object

theorem admits {node : String} (checked : check p action id intent = .ok ())
    (plain : Plain node intent) : Force.Admits .node node id (request action intent) := by
  obtain ⟨known, object, _⟩ := check_body checked
  have body : Force.bodyOf .node (request action intent) = intent := rfl
  constructor
  · rfl
  · rw [body]
    exact object
  · rw [body]
    exact check_identity checked
  · rw [body]
    exact plain.revision
  · rw [body]
    exact fun _ => plain.named
  · have member : Force.nodeActions.contains action = true := by
      simp only [operationActions, Force.nodeActions, List.contains_iff_mem, List.mem_cons] at known ⊢
      tauto
    have only : Json.only [("action", .str action), ("intent", intent)] ["action", "intent"] = true :=
      rfl
    have listed : (request action intent).asObject =
        some [("action", .str action), ("intent", intent)] := rfl
    have named : (request action intent).field "action" = .str action := rfl
    simp only [Force.validBody, listed, named, Option.getD_some, only, Json.asStr, Option.any_some,
      member, Bool.and_self]
  · rw [body]
    exact fun _ => plain.plan

end Operation
end NodePlane
