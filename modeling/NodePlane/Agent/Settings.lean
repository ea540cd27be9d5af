import NodePlane.Agent.Profile
import Mathlib.Data.List.Sort

/-! Node settings intents: one journaled, node-wide change of the protocol
settings, its read-only recovery and its repair. -/
namespace NodePlane

def fields : List String :=
  ["kind", "node_key", "command_id", "revision", "protocols", "settings"]

def settingsKeys : List String :=
  ["public_host", "xray_host", "xray_sni", "xray_tcp_port", "xray_xhttp_port", "xray_xhttp_path",
    "awg_public_host", "awg_port", "xray_fingerprint", "awg_interface", "awg_i1_preset",
    "awg_port_mode", "awg_parameters", "ipv6_outbound", "xray_bittorrent"]

/-- `[A-Za-z0-9][A-Za-z0-9_-]{0,63}` -/
def nodeKey (value : String) : Bool :=
  value.toList.head?.any Char.isAlphanum &&
    matchesName value 64 fun c => c.isAlphanum || c ∈ ['_', '-']

def containsDots : List Char → Bool
  | '.' :: '.' :: _ => true
  | _ :: cs => containsDots cs
  | [] => false

def host (value : String) : Bool :=
  !containsDots value.toList && value.toList.head?.any Char.isAlphanum &&
    value.toList.getLast?.any Char.isAlphanum &&
    value.toList.all fun c => c.isAlphanum || c ∈ ['.', '-']

/-- A list of distinct protocols. -/
def protocolList (value : Json) : Option (List String) :=
  match value.asArray.bind fun items => items.mapM fun item =>
      item.asStr.filter fun p => ["awg", "xray"].contains p with
  | some list => if list.length ≤ 2 && list.Nodup then some list else none
  | none => none

/-- The fields of `awg_parameters`. -/
def awgFields : List String :=
  ["Jc", "Jmin", "Jmax", "S1", "S2", "S3", "S4", "H1", "H2", "H3", "H4", "I1", "I2", "I3", "I4",
    "I5", "HeaderProtectionKey", "ContentPaddingAddition", "RekeyAfterTime", "RekeyTimeout",
    "RejectAfterTime", "KeepaliveTimeout", "MaxHandshakeAttempts", "RandomTrailers",
    "DisableCookies"]

def checkParameters (p : Platform) (value : Json) : Except String Unit :=
  match value.asObject with
  | none => .error "unknown AWG parameters"
  | some [] => .ok ()
  | some parameters =>
    if parameters.any fun m => !awgFields.contains m.1 then .error "unknown AWG parameters"
    else if parameters.any fun m => !m.2.asStr.any fun text =>
        text ≠ "" && text.utf8ByteSize ≤ 4096 && text.toList.all fun c =>
          32 ≤ c.toNat && c.toNat ≤ 126 then
      .error "invalid AWG parameter value"
    else if p.awgProfile parameters then .ok ()
    else .error "invalid AWG parameters"

/-- The values a text setting takes. -/
def validText (field text : String) : Bool :=
  if ["public_host", "xray_host", "xray_sni", "awg_public_host"].contains field then host text
  else if field = "xray_xhttp_path" then
    text.toList.head? == some '/' && (text.toList.drop 1).all fun c =>
      c.isAlphanum || c ∈ ['/', '_', '~', '.', '%', '+', '-']
  else if field = "awg_interface" then
    text.utf8ByteSize ≤ 15 && text.toList.head?.any Char.isAlpha &&
      text.toList.all fun c => c.isAlphanum || c ∈ ['_', '-']
  else if field = "awg_i1_preset" then ["quic", "dns", "chaos"].contains text
  else if field = "ipv6_outbound" then ["on", "off"].contains text
  else if field = "xray_bittorrent" then ["allow", "block"].contains text
  else if field = "awg_port_mode" then ["auto", "manual"].contains text
  else if field = "xray_fingerprint" then
    ["chrome", "firefox", "safari", "ios", "android", "edge", "random", "randomized"].contains text
  else true

def checkSetting (p : Platform) (field : String) (value : Json) : Except String Unit :=
  if field = "awg_parameters" then checkParameters p value
  else if ['_', 'p', 'o', 'r', 't'].isSuffixOf field.toList then
    if value.asI64.any fun port => 1 ≤ port && port ≤ 65535 then .ok () else .error "invalid port"
  else
    match value.asStr.filter fun text => text ≠ "" && text.utf8ByteSize ≤ 255 &&
        text.toList.all fun c => 33 ≤ c.toNat && c.toNat ≤ 126 with
    | none => .error "invalid text setting"
    | some text =>
      if validText field text then .ok ()
      else .error ("invalid " ++ String.ofList (field.toList.map fun c => if c = '_' then ' ' else c))

/-- A settings intent; `check` makes the checked ones. -/
structure Settings where
  value : Json

namespace Settings

def commandId (s : Settings) : String := (s.value.field "command_id").asStr.getD ""
def nodeKey (s : Settings) : String := (s.value.field "node_key").asStr.getD ""
def revision (s : Settings) : Int := (s.value.field "revision").asI64.getD 0
def protocols (s : Settings) : List String := (protocolList (s.value.field "protocols")).getD []
def enabled (s : Settings) (protocol : String) : Bool := s.protocols.contains protocol

def removed (s : Settings) : List String :=
  (protocolList ((s.value.field "protocol_plan").field "remove_protocols")).getD []

/-- Neither settings nor a removal: no runtime is a target. -/
def empty (s : Settings) : Bool := s.protocols.isEmpty && s.removed.isEmpty

def text (s : Settings) (key default : String) : String :=
  ((s.value.field "settings").field key).asStr.getD default

def port (s : Settings) (key : String) (default : Int) : Int :=
  ((s.value.field "settings").field key).asI64.getD default

/-- The removal a `protocol_plan` names is disjoint from the protocols. -/
def checkPlan (protocols : List String) (plan : Json) : Except String Unit :=
  match plan.asObject.filter fun plan => Json.only plan ["remove_protocols"] with
  | none => .error "invalid protocol plan"
  | some _ =>
    match protocolList (plan.field "remove_protocols") with
    | none => .error "invalid protocol removal"
    | some removed =>
      if removed.any protocols.contains then .error "invalid protocol removal" else .ok ()

def required (protocols : List String) : List String :=
  (if protocols.isEmpty then [] else ["public_host"]) ++
    (if protocols.contains "xray" then
      ["xray_sni", "xray_tcp_port", "xray_xhttp_port", "xray_xhttp_path"] else []) ++
    (if protocols.contains "awg" then ["awg_port"] else [])

/-- A checked settings intent, from its JSON form. -/
def check (p : Platform) (intent : Json) : Except String Settings := do
  let map ← intent.asObject.elim (.error "invalid node settings intent") .ok
  let planned := Json.containsKey map "protocol_plan"
  if !Json.only map (if planned then "protocol_plan" :: fields else fields) then
    .error "invalid node settings intent"
  if intent.field "kind" ≠ .str "node_settings" ||
      !(intent.field "node_key").asStr.any NodePlane.nodeKey then .error "invalid node key"
  if !(intent.field "command_id").asStr.any NodePlane.commandId then
    .error "invalid command identity"
  if !(intent.field "revision").asI64.any fun revision => 0 < revision then
    .error "invalid revision"
  let protocols ← (protocolList (intent.field "protocols")).elim (.error "invalid protocols") .ok
  if planned then checkPlan protocols (intent.field "protocol_plan")
  let settings ← ((intent.field "settings").asObject.filter fun settings =>
    settings.all fun m => settingsKeys.contains m.1).elim (.error "invalid settings") .ok
  if (required protocols).any fun key => !Json.containsKey settings key then
    .error "node settings are incomplete"
  settings.forM fun m => checkSetting p m.1 m.2
  let setting := (intent.field "settings").field
  if protocols.contains "xray" && (setting "xray_tcp_port" = setting "xray_xhttp_port" ||
      !(setting "xray_xhttp_path").asStr.any fun path => path.toList.head? == some '/') then
    .error "invalid Xray ports or path"
  return ⟨intent⟩

/-- What a checked intent identifies itself by. -/
theorem check_identity {p : Platform} {intent : Json} {s : Settings}
    (checked : Settings.check p intent = .ok s) :
    s.value = intent ∧ (intent.field "command_id").asStr = some s.commandId ∧ 0 < s.revision := by
  have fieldsChecked : s.value = intent ∧
      (intent.field "command_id").asStr.any NodePlane.commandId = true ∧
      (intent.field "revision").asI64.any (fun revision => 0 < revision) = true := by
    simp only [Settings.check, bind, Except.bind, pure, Except.pure] at checked
    repeat' split at checked
    all_goals first | contradiction | skip
    all_goals
      simp_all
      rw [← checked]
  obtain ⟨rfl, identity, positive⟩ := fieldsChecked
  refine ⟨rfl, ?_, ?_⟩
  · cases found : (s.value.field "command_id").asStr with
    | none => simp [found] at identity
    | some id => simp [commandId, found]
  · cases found : (s.value.field "revision").asI64 with
    | none => simp [found] at positive
    | some n => simpa [revision, found] using positive

end Settings

def quicPorts : List Int := [443, 8443, 4433, 4443]
def dnsPorts : List Int := [53, 5353, 5300, 8053]

/-- The ports a preset may use, the preferred one first. -/
def portCandidates (preset : String) (preferred : Int) : Except String (List Int) :=
  if preferred < 1 ∨ 65535 < preferred then .error "invalid AWG port selection"
  else if preset = "chaos" then
    if preferred < 1024 ∨ 9999 < preferred then .error "Chaos port must be between 1024 and 9999"
    else .ok ((List.range 128).map fun offset => 1024 + (preferred - 1024 + offset) % 8976)
  else if preset = "quic" then .ok (preferred :: quicPorts.filter (· ≠ preferred))
  else if preset = "dns" then .ok (preferred :: dnsPorts.filter (· ≠ preferred))
  else .error "invalid AWG port selection"

/-- The digest a verified result reports: the protocols and settings. -/
def settingsDigest (p : Platform) (intent : Json) : String :=
  let protocols := ((intent.field "protocols").asArray.getD []).insertionSort fun a b =>
    !Json.textBefore (b.asStr.getD "") (a.asStr.getD "")
  p.fingerprint (Json.object [("protocols", .arr protocols), ("settings", intent.field "settings")])

namespace SettingsJournal

/-- The result must report the requested settings; an automatically chosen AWG
port must be a candidate of the preset. -/
def verifyResult (p : Platform) (settings : Settings) (response : Response) : Except String Unit :=
  match p.fromStr response.payloadJson with
  | none => .error "invalid node settings result"
  | some payload =>
    let expected := Json.object
      [("node_key", .str settings.nodeKey), ("revision", .int settings.revision)]
    let report (expected effective : Json) : Except String Unit :=
      if payload = expected.set "settings_sha256" (.str (settingsDigest p effective)) then .ok ()
      else .error "node settings verification mismatch"
    match payload.asObject.bind (·.lookup "awg_port") with
    | none => report expected settings.value
    | some port =>
      let candidates :=
        portCandidates (settings.text "awg_i1_preset" "quic") (settings.port "awg_port" 0)
      let valid := settings.enabled "awg" && settings.text "awg_port_mode" "" == "auto" &&
        port.asI64.any fun selected => candidates.toOption.any (·.contains selected)
      if !valid then .error "invalid selected AWG port"
      else
        report (expected.set "awg_port" port) (settings.value.set "settings"
          ((settings.value.field "settings").set "awg_port" port))

/-- The commit before the runner. -/
def start (p : Platform) (settings : Settings) (instanceId : String) (j : Journal) : Journal :=
  (j.insertCommand settings.commandId
      ⟨p.fingerprint settings.value, .running, none, instanceId⟩).setSettingsFence
    settings.nodeKey ⟨settings.revision, settings.commandId⟩

/-- The commit of the runner's verified result. -/
def close (p : Platform) (settings : Settings) (j : Journal) (response : Response) :
    Except String (Journal × Response) :=
  match verifyResult p settings response with
  | .error err => .error err
  | .ok () => .ok (j.closeCommand settings.commandId .succeeded response.toJson, response)

def schema (j : Journal) : Journal := j.commandsSchema.fencesSchema.settingsFenceSchema

/-- The journal's answer to a settings command, or leave to start it. -/
def admission (p : Platform) (settings : Settings) (j : Journal) : Except String (Option Response) :=
  match j.commands.lookup settings.commandId with
  | some row =>
    if row.fingerprint ≠ p.fingerprint settings.value then .error "command identity conflict"
    else if row.status = .succeeded then (Response.parse row.response).map some
    else .error "previous command did not complete successfully"
  | none =>
    if j.unfinished [] then .error "unfinished execution requires operator reconciliation"
    else
      match j.settingsFence.lookup settings.nodeKey with
      | some fence =>
        if settings.revision ≤ fence.revision then .error "stale or conflicting revision"
        else .ok none
      | none => .ok none

/-- Records and runs `intent`; a repeated command returns its first result. -/
def apply (p : Platform) (intent : Json) (instanceId : String) (outcome : Outcome Response)
    (reached : Bool) (node : Node) : Ran String Response :=
  match Settings.check p intent with
  | .error err => .refuse node err
  | .ok settings =>
    if settings.empty then
      .refuse node "no VPN settings or authorized protocol removal requested"
    else if node.disabled then .refuse node "agent removal is in progress"
    else
      let journal := schema node.journal
      match admission p settings journal with
      | .error err => .refuse { node with journal } err
      | .ok (some response) => .reply { node with journal } (.ok response)
      | .ok none =>
        let started := { node with journal := start p settings instanceId journal }
        attempt started (.settings intent (outcome.wrote reached)) outcome id
          (close p settings started.journal)

/-- The stored result of a confirmed command, without running anything. -/
def lookup (p : Platform) (intent : Json) (j : Journal) : Except String Response :=
  match Settings.check p intent with
  | .error err => .error err
  | .ok settings =>
    match j.commands.lookup settings.commandId with
    | some ⟨fingerprint, .succeeded, some response, _⟩ =>
      if fingerprint = p.fingerprint intent then Response.parse (some response)
      else .error "node settings success is not confirmed"
    | _ => .error "node settings success is not confirmed"

/-- What a repair reports. -/
def repairKeys : List String := ["config_matches", "containers_running"]

/-- An empty command has no runtime to inspect. -/
def observation (settings : Settings) (inspection : Except String Json) : Except String Json :=
  if settings.empty then
    .ok (Json.object [("config_matches", .bool false), ("containers_running", .bool false)])
  else inspection

/-- Commits the repair record of an observation, or answers why there is none. -/
def repair (p : Platform) (observation : Except String Json) (now : Int) (opened : Node)
    (commit : Json → Journal) : Ran String Json :=
  match observation with
  | .error err => .refuse opened err
  | .ok observation =>
    if !Profile.observed repairKeys observation then .refuse opened "live inspection unavailable"
    else
      let record := Json.object
        [("observation", observation), ("resolved_at", .str (p.timestamp now))]
      .reply { opened with journal := commit record } (.ok record)

/-- The row of an empty command that never reached the journal. -/
def tombstone (p : Platform) (settings : Settings) (instanceId : String) (j : Journal)
    (record : Json) : Journal :=
  (j.insertCommand settings.commandId
      ⟨p.fingerprint settings.value, .superseded, some record, instanceId⟩).raiseSettingsFence
    settings.nodeKey ⟨settings.revision, settings.commandId⟩

/-- Fences the exact interrupted command after an agent restart; an empty command's
tombstone is recorded even without a journal. -/
def resolve (p : Platform) (intent : Json) (instanceId : String) (inspection : Except String Json)
    (now : Int) (node : Node) : Ran String Json :=
  match Settings.check p intent with
  | .error err => .refuse node err
  | .ok settings =>
    if !settings.empty && !node.journal.schema.file then
      .refuse node "command journal is missing; outcome is unconfirmed"
    else if node.disabled then .refuse node "agent removal is in progress"
    else
      let opened := { node with journal := schema node.journal }
      match opened.journal.commands.lookup settings.commandId with
      | some row =>
        if row.fingerprint ≠ p.fingerprint intent then .refuse opened "command identity mismatch"
        else if row.status = .superseded then
          .reply opened (row.response.elim (.error "invalid repair record") .ok)
        else if row.status ≠ .running then .refuse opened "command is not interrupted"
        else if instanceId = "" || row.instanceId = instanceId then
          .refuse opened "agent service restart is required before repair"
        else
          repair p (observation settings inspection) now opened fun record =>
            opened.journal.closeCommand settings.commandId .superseded record
      | none =>
        if !settings.empty then .refuse opened "command identity mismatch"
        else
          repair p (observation settings inspection) now opened
            (tombstone p settings instanceId opened.journal)

end SettingsJournal
end NodePlane
