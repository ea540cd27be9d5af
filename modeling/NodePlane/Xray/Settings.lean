import NodePlane.Library.ListEdit
import NodePlane.Agent.JsonEdit

/-! Node settings in the Xray server config, and the independent check of a config that
they were applied to. -/
namespace NodePlane
namespace Xray
open Library

def clientInbounds : List String := ["reality-tcp", "reality-xhttp"]

def ipv6Disabled : String := "node-plane-ipv6-disabled"

/-- The blackhole the routing policy and the agent's block rules use. -/
def blocked : String := "node-plane-blocked"

def privateRule : String := "node-plane-private"

def bittorrentRule : String := "node-plane-bittorrent"

def policyRules : List String := [privateRule, bittorrentRule]

/-- Host-local, private and reserved networks clients never reach. -/
def privateNetworks : List String :=
  ["0.0.0.0/8", "10.0.0.0/8", "100.64.0.0/10", "127.0.0.0/8", "169.254.0.0/16", "172.16.0.0/12",
    "192.0.0.0/24", "192.168.0.0/16", "198.18.0.0/15", "224.0.0.0/4", "240.0.0.0/4", "::/128",
    "::1/128", "fc00::/7", "fe80::/10", "ff00::/8"]

structure Settings where
  sni : String
  tcpPort : ℕ
  xhttpPort : ℕ
  path : String
  ipv6 : Bool
  blockBittorrent : Bool
  deriving DecidableEq, Repr

def strings (texts : List String) : Json := .arr (texts.map Json.str)

def tagged (tag : String) (item : Json) : Bool := item.field "tag" = .str tag

/-- The list under `key`, empty where there is no such member. -/
def array (value : Json) (key : String) : Except String (List Json) :=
  match value.member key with
  | none => .ok []
  | some item =>
    match item.asArray with
    | some items => .ok items
    | none => .error ("Xray config " ++ key ++ " is not a list")

def blackhole (tag : String) : Json :=
  .obj [("protocol", .str "blackhole"), ("tag", .str tag)]

def ipv6Rule : Json :=
  .obj [("ip", strings ["::/0"]), ("outboundTag", .str ipv6Disabled), ("type", .str "field")]

/-- A rule that keeps clients from what `key` matches. -/
def policyRule (tag key : String) (values : List String) : Json :=
  .obj [("inboundTag", strings clientInbounds), (key, strings values),
    ("outboundTag", .str blocked), ("ruleTag", .str tag), ("type", .str "field")]

def isApi (rule : Json) : Bool := rule.field "inboundTag" = strings ["api"]

/-- The rules that each apply writes anew. -/
def isPolicy (rule : Json) : Bool :=
  rule.field "outboundTag" = .str ipv6Disabled ||
    policyRules.any fun tag => rule.field "ruleTag" = .str tag

namespace Settings
variable (settings : Settings)

/-- routeOnly keeps the requested destination; sniffing only feeds routing. -/
def sniffing : Json :=
  .obj [("destOverride", strings ["http", "tls", "quic"]), ("enabled", .bool true),
    ("routeOnly", .bool true)]

def stream (tag : String) (stream : Json) : Json :=
  let reality := ((stream.field "realitySettings").put "serverNames" (strings [settings.sni])).put
    "dest" (.str (settings.sni ++ ":443"))
  let stream := stream.put "realitySettings" reality
  if tag = "reality-xhttp" then
    stream.put "xhttpSettings"
      (((stream.field "xhttpSettings").objectOr (.obj [])).put "path" (.str settings.path))
  else
    stream

def inbound (tag : String) (port : ℕ) (inbound : Json) : Except String Json :=
  let inbound := inbound.put "port" (.int port)
  if !((inbound.field "streamSettings").field "realitySettings").isObject then
    .error "Xray Reality settings are missing"
  else
    let inbound := inbound.put "streamSettings"
      (settings.stream tag (inbound.field "streamSettings"))
    .ok (if settings.blockBittorrent then inbound.put "sniffing" sniffing
      else inbound.remove "sniffing")

def inbounds (list : List Json) : Except String (List Json) :=
  match updateLast (tagged "reality-tcp") (settings.inbound "reality-tcp" settings.tcpPort)
      "Xray Reality inbounds are missing" list with
  | .error err => .error err
  | .ok list =>
    updateLast (tagged "reality-xhttp") (settings.inbound "reality-xhttp" settings.xhttpPort)
      "Xray Reality inbounds are missing" list

def strategy : Json := .str (if settings.ipv6 then "AsIs" else "ForceIPv4")

def direct (outbound : Json) : Json :=
  outbound.put "settings"
    (((outbound.field "settings").objectOr (.obj [])).put "domainStrategy" settings.strategy)

/-- The outbounds besides `direct`: the IPv6 blackhole goes with IPv6, the other one stays. -/
def blackholes (list : List Json) : List Json :=
  let kept := list.filter fun outbound => !tagged ipv6Disabled outbound
  let kept := if settings.ipv6 then kept else kept ++ [blackhole ipv6Disabled]
  if kept.any (tagged blocked) then kept else kept ++ [blackhole blocked]

def outbounds (list : List Json) : Except String (List Json) :=
  (updateFirst (tagged "direct") (fun outbound => .ok (settings.direct outbound))
    "Xray direct outbound is missing" list).map settings.blackholes

def policy : List Json :=
  policyRule privateRule "ip" privateNetworks ::
    if settings.blockBittorrent then [policyRule bittorrentRule "protocol" ["bittorrent"]] else []

/-- The API rule stays first, then the policy rules, then any others. -/
def rules (list : List Json) : List Json :=
  let kept := list.filter fun rule => !isPolicy rule
  let kept := if settings.ipv6 then kept else ipv6Rule :: kept
  kept.filter isApi ++ settings.policy ++ kept.filter fun rule => !isApi rule

end Settings

def services : List String := ["StatsService", "HandlerService", "RoutingService"]

def withServices (list : List Json) : List Json :=
  services.foldl (fun list service =>
    if list.any fun known => known = .str service then list else list ++ [.str service]) list

/-- Online statistics for the users of level 0. -/
def withStatistics (policy : Json) : Json :=
  let policy := policy.objectOr (.obj [])
  let levels := (policy.field "levels").objectOr (.obj [])
  let users := (levels.field "0").objectOr (.obj [])
  policy.put "levels" (levels.put "0" (users.put "statsUserOnline" (.bool true)))

/-- Applies the settings. -/
def Settings.apply (settings : Settings) (config : Json) : Except String Json :=
  if !config.isObject then
    .error "Xray config is not an object"
  else do
    let inbounds ← settings.inbounds (← array config "inbounds")
    let config := config.put "inbounds" (.arr inbounds)
    let outbounds ← settings.outbounds (← array config "outbounds")
    let config := config.put "outbounds" (.arr outbounds)
    let routing := (config.field "routing").objectOr (.obj [])
    let rules ← array routing "rules"
    let config := config.put "routing" (routing.put "rules" (.arr (settings.rules rules)))
    let api := (config.field "api").objectOr (.obj [("tag", .str "api")])
    let known ← array api "services"
    let config := config.put "api" (api.put "services" (.arr (withServices known)))
    return config.put "policy" (withStatistics (config.field "policy"))

/-! The check of an applied config. -/

def invalid (what : String) : String := what ++ " verification failed"

/-- The members of a list, none of anything else. -/
def items (value : Json) : List Json := value.asArray.getD []

def findInbound (data : Json) (tag : String) : Except String Json :=
  match (items (data.field "inbounds")).reverse.find? (tagged tag) with
  | some inbound => .ok inbound
  | none => .error (invalid "Xray settings")

/-- How many rules carry the tag. -/
def countTag (rules : List Json) (tag : String) : ℕ :=
  rules.countP fun rule => (rule.field "ruleTag").asStr = some tag

/-- BitTorrent is told from the traffic of these inbounds. -/
def sniffs (data : Json) : List String → Except String Unit
  | [] => .ok ()
  | tag :: rest => do
    let sniffing := (← findInbound data tag).field "sniffing"
    if sniffing.field "enabled" ≠ .bool true ∨ sniffing.field "routeOnly" ≠ .bool true then
      throw (invalid "Xray sniffing")
    sniffs data rest

/-- Client inbounds never reach private destinations; BitTorrent follows the policy. -/
def routingPolicy (data : Json) (blockBittorrent : Bool) : Except String Unit :=
  let rules := items ((data.field "routing").field "rules")
  if countTag rules privateRule ≠ 1 ∨
      countTag rules bittorrentRule ≠ (if blockBittorrent then 1 else 0) then
    .error (invalid "Xray routing policy")
  else
    let position := (rules.findIdx? fun rule =>
      (rule.field "ruleTag").asStr = some privateRule).getD 0
    if (rules.findIdx? isApi).any fun api => position < api then
      .error (invalid "Xray API route")
    else
      let rule := (rules.drop position).headD .null
      if rule.field "inboundTag" ≠ strings clientInbounds ∨
          rule.field "outboundTag" ≠ .str blocked then
        .error (invalid "Xray private destination block")
      else if !(items (data.field "outbounds")).any fun item =>
          tagged blocked item && item.field "protocol" = .str "blackhole" then
        .error (invalid "Xray block outbound")
      else if blockBittorrent then
        sniffs data clientInbounds
      else
        .ok ()

/-- Port, server name and destination of one client inbound. -/
def Settings.checkInbound (settings : Settings) (data : Json) (tag : String) (port : ℕ) :
    Except String Unit := do
  let inbound ← findInbound data tag
  let reality := (inbound.field "streamSettings").field "realitySettings"
  if inbound.field "port" ≠ .int port ∨ reality.field "serverNames" ≠ strings [settings.sni] ∨
      reality.field "dest" ≠ .str (settings.sni ++ ":443") then
    throw (invalid "Xray settings")

/-- What the config says of IPv6, checked when the command names it. -/
def Settings.checkIpv6 (settings : Settings) (data : Json) : Except String Unit :=
  match (items (data.field "outbounds")).find? (tagged "direct") with
  | none => .error (invalid "Xray IPv6 outbound")
  | some direct =>
    if (direct.field "settings").field "domainStrategy" ≠ settings.strategy then
      .error (invalid "Xray IPv6 outbound")
    else
      let blocks := (items ((data.field "routing").field "rules")).filter fun rule =>
        rule.field "outboundTag" = .str ipv6Disabled
      let valid : Bool :=
        if settings.ipv6 then blocks.isEmpty
        else blocks.length = 1 && (blocks.headD .null).field "ip" = strings ["::/0"]
      if valid then .ok () else .error (invalid "Xray IPv6 block")

/-- The whole check of the Xray config; `named` tells whether the command names IPv6. -/
def Settings.verify (settings : Settings) (named : Bool) (data : Json) : Except String Unit := do
  settings.checkInbound data "reality-tcp" settings.tcpPort
  settings.checkInbound data "reality-xhttp" settings.xhttpPort
  let inbound ← findInbound data "reality-xhttp"
  if ((inbound.field "streamSettings").field "xhttpSettings").field "path" ≠ .str settings.path then
    throw (invalid "Xray path")
  if named then
    settings.checkIpv6 data
  routingPolicy data settings.blockBittorrent

end Xray
end NodePlane
