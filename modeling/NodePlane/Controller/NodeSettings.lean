import NodePlane.Controller.Database

/-! Public settings of a node, the node runtime values of VPN policies, and the
snapshot of both that an agent is asked to write. -/
namespace NodePlane
namespace Controller
open Library

/-! AWG ports. -/
namespace AwgPorts

/-- `draw` is what `secrets.randbelow` returns. -/
def preferredPort (draw : ℕ) (preset : String) : ℕ :=
  if preset = "quic" then 443 else if preset = "dns" then 53 else 1024 + draw % 8976

def allowedPort (preset : String) (preferred selected : ℕ) : Bool :=
  if preset = "chaos" then
    1024 ≤ selected && selected ≤ 9999 && decide (((selected : ℤ) - preferred) % 8976 < 128)
  else if preset = "quic" then [preferred, 443, 8443, 4433, 4443].contains selected
  else if preset = "dns" then [preferred, 53, 5353, 5300, 8053].contains selected
  else false

end AwgPorts

namespace Settings

def empty : Settings := fun _ => none

def set (s : Settings) (field : Field) (v : Value) : Settings :=
  fun f => if f = field then some v else s f

/-- `{**s, **t}`. -/
def overlay (s t : Settings) : Settings := fun f => (t f).or (s f)

def textOf (s : Settings) (field : Field) (default : String) : String :=
  match s field with
  | some (.text t) => t
  | _ => default

/-- What `protocol_defaults` fills in where a field is missing. -/
def defaults (draw : ℕ) (s : Settings) (protocols : List Protocol) : Settings
  | .ipv6Outbound => some (.text "on")
  | .xraySni => if .xray ∈ protocols then some (.text "www.cloudflare.com") else none
  | .xrayFingerprint => if .xray ∈ protocols then some (.text "chrome") else none
  | .xrayTcpPort => if .xray ∈ protocols then some (.port 443) else none
  | .xrayXhttpPort => if .xray ∈ protocols then some (.port 8443) else none
  | .xrayXhttpPath => if .xray ∈ protocols then some (.text "/assets") else none
  | .xrayHost => if .xray ∈ protocols then s .publicHost else none
  | .awgInterface => if .awg ∈ protocols then some (.text "wg0") else none
  | .awgI1Preset => if .awg ∈ protocols then some (.text "quic") else none
  | .awgPortMode =>
    if .awg ∈ protocols then some (.text (if (s .awgPort).isSome then "manual" else "auto"))
    else none
  | .awgPort =>
    if .awg ∈ protocols then
      some (.port (AwgPorts.preferredPort draw (s.textOf .awgI1Preset "quic")))
    else none
  | .awgPublicHost => if .awg ∈ protocols then s .publicHost else none
  | _ => none

/-- Fill omitted public settings. -/
def protocolDefaults (draw : ℕ) (s : Settings) (protocols : List Protocol) : Settings :=
  fun f => (s f).or (defaults draw s protocols f)

/-- A field has a default for these protocols whatever else is filled in. -/
theorem defaults_isSome_congr {s t : Settings} (draw next : ℕ) (protocols : List Protocol)
    (host : s .publicHost = t .publicHost) (f : Field) :
    (defaults draw s protocols f).isSome = (defaults next t protocols f).isSome := by
  cases f <;> simp only [defaults] <;> (try split) <;> simp_all

/-- Settings that are filled in once stay as they are. -/
theorem protocolDefaults_idem (draw next : ℕ) (s : Settings) (protocols : List Protocol) :
    protocolDefaults next (protocolDefaults draw s protocols) protocols =
      protocolDefaults draw s protocols := by
  funext f
  have host : (protocolDefaults draw s protocols) .publicHost = s .publicHost := by
    simp [protocolDefaults, defaults]
  have same := defaults_isSome_congr next draw protocols host f
  cases given : s f with
  | some v => simp [protocolDefaults, given]
  | none =>
    cases filled : defaults draw s protocols f with
    | some v => simp [protocolDefaults, given, filled]
    | none =>
      have none_too : defaults next (protocolDefaults draw s protocols) protocols f = none := by
        simpa [filled] using same
      rw [protocolDefaults, none_too]
      simp

/-- The settings `merge_settings` leaves: an edit of a shared host moves the hosts
that follow it, and a changed preset or mode gives up the selected port. -/
def merge (previous changes : Settings) : Settings :=
  let result := overlay previous changes
  let oldHost := previous .publicHost
  let host := result .publicHost
  let follows (f : Field) : Bool :=
    host ≠ oldHost ∧ (previous f).or oldHost = oldHost ∧ (changes f).or oldHost = oldHost
  let result : Settings := fun f =>
    if (f = .xrayHost ∨ f = .awgPublicHost) ∧ follows f then host else result f
  let result := if (changes .awgPort).isSome ∧ (changes .awgPortMode).isNone then
    result.set .awgPortMode (.text "manual") else result
  if result .awgPortMode = some (.text "auto") ∧
      (((changes .awgPortMode).isSome ∧ (changes .awgPort).isNone) ∨
        (result .awgI1Preset ≠ previous .awgI1Preset ∧
          (changes .awgPort).or (previous .awgPort) = previous .awgPort)) then
    fun f => if f = .awgPort then none else result f
  else result

/-- The node lacks a setting that its protocols need. -/
def incomplete (s : Settings) (protocols : List Protocol) : Bool :=
  (!protocols.isEmpty && (s .publicHost).isNone) ||
  (protocols.contains .xray &&
    [Field.xraySni, .xrayTcpPort, .xrayXhttpPort, .xrayXhttpPath].any fun f => (s f).isNone) ||
  (protocols.contains .awg && (s .awgPort).isNone)

/-- A value that is no public setting, or two Xray ports that are one. -/
def invalid (s : Settings) (protocols : List Protocol) : Bool :=
  (s .xrayBittorrent).isSome || (protocols.contains .xray && s .xrayTcpPort == s .xrayXhttpPort)

end Settings

/-! Resolution of the one policy that is a node runtime setting. -/
namespace VpnPolicies

def effective (p : Policies) (node : NodeKey) : Bittorrent :=
  (p.nodes.lookup node).getD (p.installation.getD .allow)

/-- Resolved non-default node runtime values for a node settings intent. -/
def runtimeSettings (p : Policies) (node : NodeKey) (protocols : List Protocol) : Settings :=
  if .xray ∈ protocols ∧ effective p node ≠ .allow then
    Settings.empty.set .xrayBittorrent (.text "block")
  else Settings.empty

/-- A changed runtime value needs the ordinary per-node settings apply. A global
change skips nodes with their own value: theirs does not change. -/
def markNodes (f : Fleet) (scope : Option NodeKey) : Table NodeKey Node :=
  f.nodes.mapRows fun key node =>
    if (scope = none ∧ (f.policies.nodes.lookup key).isNone ∨ scope = some key) ∧
        .xray ∈ node.protocols then
      { node with desiredRevision := node.desiredRevision + 1 }
    else node

def write (p : Policies) (scope : Option NodeKey) (value : Option Bittorrent) : Policies :=
  match scope with
  | none => { p with installation := value }
  | some key =>
    { p with
      nodes := match value with
        | none => p.nodes.keep fun k _ => k ≠ key
        | some v => p.nodes.put key v }

/-- One change of `VpnPolicies.set`, to the installation or to a node. -/
def change (f : Fleet) (scope : Option NodeKey) (value : Option Bittorrent) : Fleet :=
  { f with
    nodes := markNodes f scope
    policies := write f.policies scope value }

/-- `set` applies its changes in turn, or none of them. -/
def set (db : Db) (changes : List (Option NodeKey × Option Bittorrent)) : Result Db :=
  admitted db <|
    deny (changes.any fun c => c.1.any fun key => (db.fleet.nodes.lookup key).isNone)
      "resource_not_found" <|
      .ok { db with fleet := changes.foldl (fun f c => change f c.1 c.2) db.fleet }

end VpnPolicies

/-- Settings as an agent runs them: without protocols nothing runs. -/
structure Runtime where
  protocols : List Protocol
  settings : Settings

namespace Runtime

def of (protocols : List Protocol) (settings : Settings) : Runtime :=
  if protocols = [] then ⟨[], Settings.empty⟩ else ⟨protocols, settings⟩

/-- The runtime settings of a node as they stand. -/
def current (f : Fleet) (key : NodeKey) (node : Node) : Runtime :=
  of node.protocols ((Settings.protocolDefaults 0 node.settings node.protocols).overlay
    (VpnPolicies.runtimeSettings f.policies key node.protocols))

end Runtime

namespace NodeSettings

/-- `_snapshot` with a connection: validated settings, with resolved policies. -/
def snapshot (draw : ℕ) (f : Fleet) (key : NodeKey) (node : Node) : Result NodeIntent :=
  let settings := Settings.protocolDefaults draw node.settings node.protocols
  deny (settings.incomplete node.protocols) "node_settings_incomplete" <|
    deny (settings.invalid node.protocols) "invalid_input" <|
      .ok
        { protocols := node.protocols
          settings := settings.overlay
            (VpnPolicies.runtimeSettings f.policies key node.protocols)
          removeProtocols := []
          requestedRevision := node.desiredRevision }

/-- `effective_port_intent`: the settings with the port that the agent selected. -/
def effectivePort (intent : NodeIntent) (awgPort : Option ℕ) : Option Settings :=
  match awgPort with
  | none => some intent.settings
  | some selected =>
    match intent.settings .awgPort with
    | some (.port preferred) =>
      if .awg ∈ intent.protocols ∧ intent.settings .awgPortMode = some (.text "auto") ∧
          AwgPorts.allowedPort (intent.settings.textOf .awgI1Preset "quic") preferred
            selected = true then
        some (intent.settings.set .awgPort (.port selected))
      else none
    | _ => none

/-- What an agent reports of the settings it wrote; the digest is represented by
the protocols and settings it is taken of. -/
structure Receipt where
  node : NodeKey
  revision : ℕ
  digest : List Protocol × Settings
  awgPort : Option ℕ

/-- `_valid_result`: the settings the receipt confirms. -/
def validResult (node : NodeKey) (revision : ℕ) (intent : NodeIntent) (r : Receipt) :
    Option Settings :=
  match effectivePort intent r.awgPort with
  | none => none
  | some settings =>
    if r.node = node ∧ r.revision = revision ∧ r.digest = (intent.protocols, settings) then
      some settings
    else none

/-- `persist_selected_port`: only the node's newest revision takes the port. -/
def persistSelectedPort (nodes : Table NodeKey Node) (key : NodeKey) (revision : ℕ)
    (settings : Settings) (awgPort : Option ℕ) : Table NodeKey Node :=
  if awgPort.isSome then
    nodes.alter key fun node =>
      if node.desiredRevision = revision then { node with settings := settings } else node
  else nodes

end NodeSettings
end Controller
end NodePlane
