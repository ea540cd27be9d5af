import NodePlane.Library.MapSums
import NodePlane.Agent.Intent
import NodePlane.Agent.JsonEdit
import NodePlane.Xray.Api

/-! Traffic counters of one identity and of several read together: Xray's statistics and
the AWG transfer listing. Node.env and the journal lock come before; the state is what the
files, the containers and the engines answer. -/
namespace NodePlane
namespace Readings
open Library

/-- Protobuf's int64 upper bound: Xray counters are signed. -/
def maxCounter : ℕ := 9223372036854775807

/-- More would not fit a reply. -/
def maxBatch : ℕ := 10000

structure Query where
  nodeKey : String
  runtimeName : String
  protocol : String
  identity : String
  deriving DecidableEq, Repr

structure Item where
  runtimeName : String
  protocol : String
  identity : String
  deriving DecidableEq, Repr

/-- The counters of several identities of one node, read together. -/
structure Batch where
  nodeKey : String
  items : List Item
  deriving DecidableEq, Repr

structure InboundTraffic where
  uplinkBytes : ℕ
  downlinkBytes : ℕ
  deriving DecidableEq, Repr

structure Snapshot where
  nodeKey : String
  runtimeName : String
  protocol : String
  identity : String
  epoch : String
  uplinkBytes : ℕ
  downlinkBytes : ℕ
  inbounds : BTreeMap String InboundTraffic

structure BatchSnapshot where
  nodeKey : String
  /-- Only the identities whose counters are known. -/
  items : List Snapshot

/-- Bytes the client sent and received. -/
structure Counters where
  uplink : ℕ
  downlink : ℕ
  deriving DecidableEq, Repr

/-- A client's counters per inbound of its engine. -/
abbrev ByInbound := BTreeMap String Counters

def inboundTraffic (inbounds : ByInbound) : BTreeMap String InboundTraffic :=
  inbounds.map fun _ counters => ⟨counters.uplink, counters.downlink⟩

def counter (value : ℕ) : Except String ℕ :=
  if value ≤ maxCounter then .ok value else .error "invalid traffic counter"

/-! Texts as Rust's `str` reads them. -/

/-- `char::is_whitespace`. -/
def whitespace (c : Char) : Bool :=
  (9 ≤ c.toNat && c.toNat ≤ 13) || (0x2000 ≤ c.toNat && c.toNat ≤ 0x200a) ||
    c.toNat ∈ [0x20, 0x85, 0xa0, 0x1680, 0x2028, 0x2029, 0x202f, 0x205f, 0x3000]

def trim (text : List Char) : List Char :=
  ((text.dropWhile whitespace).reverse.dropWhile whitespace).reverse

/-- `split_inclusive('\n')`. -/
def splitInclusive : List Char → List (List Char)
  | [] => []
  | c :: rest =>
    if c = '\n' then [c] :: splitInclusive rest
    else match splitInclusive rest with
      | [] => [[c]]
      | line :: more => (c :: line) :: more

/-- `lines()`: without the line ends. -/
def lines (text : List Char) : List (List Char) :=
  (splitInclusive text).map fun line => match line.reverse with
    | '\n' :: '\r' :: rest | '\n' :: rest => rest.reverse
    | _ => line

def splitWhitespace : List Char → List (List Char)
  | [] => []
  | c :: rest =>
    if whitespace c then splitWhitespace rest
    else match splitWhitespace rest, rest with
      | word :: more, d :: _ => if whitespace d then [c] :: word :: more else (c :: word) :: more
      | words, _ => [c] :: words

/-- `split_once('=')`. -/
def splitOnce (text : List Char) : Option (List Char × List Char) :=
  match text.span (· ≠ '=') with
  | (_, []) => none
  | (key, _ :: value) => some (key, value)

def stripPrefix (text start : List Char) : Option (List Char) :=
  if start.isPrefixOf text then some (text.drop start.length) else none

def contains (text pattern : List Char) : Bool := text.tails.any pattern.isPrefixOf

/-! The identities. -/

def validName (value : String) : Bool :=
  matchesName value 64 fun c => c.isAlphanum || c ∈ ['_', '-']

def validUuid (value : String) : Bool :=
  value.utf8ByteSize == 36 && value.toList.zipIdx.all fun (c, index) =>
    if index ∈ [8, 13, 18, 23] then c == '-' else hexDigitLower c

/-- 32 bytes in padded base64. -/
def validAwgKey (value : String) : Bool :=
  value.utf8ByteSize == 44 && value.toList.getLast? == some '=' &&
    value.toList.dropLast.all fun c => c.isAlphanum || c ∈ ['+', '/']

def Query.validate (query : Query) : Except String Unit :=
  if !validName query.runtimeName || !validName query.nodeKey then .error "invalid traffic query"
  else if query.protocol = "xray" then
    if validUuid query.identity then .ok () else .error "invalid Xray identity"
  else if query.protocol = "awg" then
    if validAwgKey query.identity then .ok () else .error "invalid AWG identity"
  else .error "unsupported traffic protocol"

/-! The epoch of a container. -/

/-- What `docker inspect` ends with. -/
inductive Inspection
  | failed (err : String)
  | unsuccessful
  | unreadable (err : String)
  | records (found : List Json)

/-- One character of a string as `serde_json` writes it. -/
def escapeChar (c : Char) : List Char :=
  if c.toNat < 0x20 ∨ c ∈ ['"', '\\'] then escapeUnit c.toNat else [c]

def quotedText (s : String) : List Char := '"' :: s.toList.flatMap escapeChar ++ ['"']

mutual
/-- `serde_json::to_string`. -/
def text : Json → List Char
  | .str s => quotedText s
  | .arr [] => ['[', ']']
  | .arr (v :: vs) => '[' :: (text v ++ textItems vs)
  | .obj [] => ['{', '}']
  | .obj ((k, v) :: ms) => '{' :: (quotedText k ++ ':' :: (text v ++ textMembers ms))
  | other => other.write ⟨[], [':']⟩

def textItems : List Json → List Char
  | [] => [']']
  | v :: vs => ',' :: (text v ++ textItems vs)

def textMembers : List (String × Json) → List Char
  | [] => ['}']
  | (k, v) :: ms => ',' :: (quotedText k ++ ':' :: (text v ++ textMembers ms))
end

/-- The text whose SHA-256 is the epoch. -/
def epoch (boot : String) (record : Json) : String :=
  let state := record.field "State"
  String.ofList ('[' :: (quotedText boot ++ ", ".toList ++ text (record.field "Id") ++
    ", ".toList ++ text (state.field "StartedAt") ++ ", ".toList ++ text (state.field "Pid") ++
    [']']))

/-- Identifies one run of the container on this boot. -/
def containerEpoch (inspected : Inspection) (boot : Except String (List Char)) :
    Except String String :=
  match inspected with
  | .failed err => .error ("docker failed: " ++ err)
  | .unsuccessful => .error "protocol container unavailable"
  | .unreadable err => .error err
  | .records [record] =>
    if (record.field "State").field "Running" ≠ .bool true then
      .error "protocol container unavailable"
    else boot.map fun boot => epoch (String.ofList (trim boot)) record
  | .records _ => .error "protocol container unavailable"

def validContainer (name : String) : Bool :=
  name.toList.head?.any Char.isAlphanum &&
    matchesName name 128 fun c => c.isAlphanum || c ∈ ['_', '.', '-']

/-! The engines. -/

namespace Xray

/-- The inbounds' ids in traffic reports, in the order of the node's tags. -/
def inboundIds : List String := ["vless-tcp", "vless-xhttp"]

/-- The Xray runtime of this node: its settings, its config when the file can be read and
parsed, and its statistics when the API answers. -/
structure Node where
  config : Except String Json
  container : String
  tags : String × String
  stats : Option (BTreeMap String Int)

/-- The part of an email before its first dot. -/
def nameOf (email : String) : String := String.ofList (email.toList.takeWhile (· ≠ '.'))

/-- The client name of a config entry. -/
def clientName (client : Json) : Option String :=
  match (client.member "name").bind Json.asStr with
  | some name => some name
  | none => ((client.member "email").bind Json.asStr).map nameOf

/-- The key of a user's level in the policy. -/
def levelOf (user : Json) : String :=
  match user.field "level" with
  | .null => "0"
  | .str level => level
  | other => String.ofList (text other)

/-- One inbound of `check_config`. -/
def checkInbound (config : Json) (inbounds : List Json) (name identity tag : String) :
    Except String Unit := do
  let [inbound] := inbounds.filter fun inbound => inbound.field "tag" = .str tag
    | throw "missing Xray inbound"
  let some clients := ((inbound.field "settings").field "clients").asArray
    | throw "missing Xray inbound"
  let [user] := clients.filter fun client => clientName client = some name
    | throw "Xray identity changed"
  if user.field "id" ≠ .str identity ∨ user.field "email" ≠ .str (NodePlane.Xray.email name tag) then
    throw "Xray identity changed"
  let policy := ((config.field "policy").field "levels").field (levelOf user)
  if policy.field "statsUserUplink" ≠ .bool true ∨
      policy.field "statsUserDownlink" ≠ .bool true then
    throw "Xray user statistics unavailable"

/-- Statistics must be enabled for the user's level on both inbounds, and the config must
still hold this identity under its email of each. -/
def checkConfig (config : Json) (tags : String × String) (name identity : String) :
    Except String Unit := do
  let services := ((config.field "api").field "services").asArray
  if !(config.field "stats").isObject || !services.any (·.contains (.str "StatsService")) then
    throw "Xray statistics unavailable"
  if tags.1 = tags.2 then throw "invalid Xray inbounds"
  let some inbounds := (config.field "inbounds").asArray | throw "missing Xray inbound"
  checkInbound config inbounds name identity tags.1
  checkInbound config inbounds name identity tags.2

/-- One statistic of `parse`. -/
def parseStat (name : String) (tags : String × String) (inbounds : ByInbound)
    (stat : String × Int) : Except String ByInbound := do
  if stat.2 < 0 then throw "invalid traffic counter"
  let found := ([tags.1, tags.2].zip inboundIds).findSome? fun (tag, inbound) =>
    let start := "user>>>" ++ NodePlane.Xray.email name tag ++ ">>>traffic>>>"
    (stripPrefix stat.1.toList start.toList).map fun direction => (inbound, direction)
  let some (inbound, direction) := found | throw "unexpected Xray statistics identity"
  if direction = "uplink".toList then
    let value ← counter stat.2.toNat
    return inbounds.modify inbound fun counters => { counters with uplink := value }
  else if direction = "downlink".toList then
    let value ← counter stat.2.toNat
    return inbounds.modify inbound fun counters => { counters with downlink := value }
  else throw "unexpected Xray statistics identity"

/-- The client's counters on each inbound, and their sum; a missing one is zero. `stats`
holds only counters of this client's emails. -/
def parse (name : String) (tags : String × String) (stats : BTreeMap String Int) :
    Except String (Counters × ByInbound) := do
  let zero : ByInbound := inboundIds.foldl (fun inbounds id => inbounds.insert id ⟨0, 0⟩) ∅
  let inbounds ← stats.toList.foldlM (parseStat name tags) zero
  let uplink ← counter (sumValues Counters.uplink inbounds)
  let downlink ← counter (sumValues Counters.downlink inbounds)
  return (⟨uplink, downlink⟩, inbounds)

/-- The counters of the client's emails among `stats`. -/
def own (name : String) (stats : BTreeMap String Int) : BTreeMap String Int :=
  let start := ("user>>>" ++ name ++ ".").toList
  stats.filter fun stat _ => start.isPrefixOf stat.toList

/-- Counters whose names contain `pattern`. -/
def queryStats (stats : BTreeMap String Int) (pattern : String) : BTreeMap String Int :=
  stats.filter fun stat _ => contains stat.toList pattern.toList

def counters (node : Node) (name identity : String) : Except String (Counters × ByInbound) := do
  let config ← node.config
  checkConfig config node.tags name identity
  let some answered := node.stats | throw "Xray statistics unavailable"
  let stats := queryStats answered ("user>>>" ++ name ++ ".")
  parse name node.tags (own name stats)

/-- Each user's own counters from the statistics of all users. -/
def split (config : Json) (tags : String × String) (stats : BTreeMap String Int)
    (users : List (String × String)) : List (Option (Counters × ByInbound)) :=
  users.map fun (name, identity) =>
    match checkConfig config tags name identity with
    | .error _ => none
    | .ok () => (parse name tags (own name stats)).toOption

/-- Counters of several users, `(name, identity)`, from one statistics query; a user whose
counters are unknown gets none. -/
def batch (node : Node) (users : List (String × String)) :
    List (Option (Counters × ByInbound)) :=
  match node.config with
  | .error _ => List.replicate users.length none
  | .ok config =>
    match node.stats with
    | none => List.replicate users.length none
    | some answered => split config node.tags (queryStats answered "user>>>") users

end Xray

namespace Awg

/-- The AWG runtime of this node: its settings, its config when the file can be read, and
what `wg show <interface> transfer` prints. -/
structure Node where
  config : Except String (List Char)
  container : String
  interface : String
  serverKey : String
  transfer : Except String (List Char)

/-- The peer name in wg0.conf and the clients directory. -/
def Node.peerName (node : Node) (profile : String) : String :=
  if node.serverKey.isEmpty then profile else node.serverKey ++ "-" ++ profile

/-- `key = value` lines of a block, with keys and values trimmed. -/
def fields (text : List Char) : BTreeMap String String :=
  ((lines text).filterMap fun line => splitOnce (trim line)).foldl (fun fields (key, value) =>
    fields.insert (String.ofList (trim key)) (String.ofList (trim value))) ∅

/-- The config without the named peer, and that peer's block (empty when absent). -/
def splitPeer (text : List Char) (name : String) : List Char × List Char :=
  let comment := ("# " ++ name).toList
  match (splitInclusive text).span fun line => trim line ≠ comment with
  | (_, []) => (text, [])
  | (head, first :: tail) =>
    let (block, rest) := tail.span fun line => trim line ≠ []
    ((head ++ rest).flatten, (first :: block).flatten)

def validInterface (name : String) : Bool :=
  name.toList.head?.any Char.isAlpha &&
    matchesName name 15 fun c => c.isAlphanum || c ∈ ['_', '-']

/-- The peer's key on disk must still be `identity`. -/
def checkConfig (text : List Char) (peer identity : String) : Except String Unit :=
  let comment := ("# " ++ peer).toList
  if ((lines text).filter fun line => trim line = comment).length ≠ 1 then
    .error "AWG peer unavailable"
  else if (fields (splitPeer text peer).2)["PublicKey"]? ≠ some identity then
    .error "AWG identity changed"
  else .ok ()

def number (value : List Char) : Except String ℕ :=
  if value.length ≤ 19 ∧ value.all Char.isDigit ∧ value ≠ [] then
    counter (value.foldl (fun n c => 10 * n + (c.toNat - 48)) 0)
  else .error "invalid traffic counter"

/-- Server receive is client upload; server transmit is client download. -/
def parse (output : List Char) (identity : String) : Except String Counters := do
  let [row] := ((lines output).map splitWhitespace).filter fun row =>
      row.head? = some identity.toList
    | throw "AWG peer counters unavailable"
  let [_, received, sent] := row | throw "AWG peer counters unavailable"
  let uplink ← number received
  let downlink ← number sent
  return ⟨uplink, downlink⟩

def counters (node : Node) (name identity : String) : Except String Counters := do
  let text ← node.config
  checkConfig text (node.peerName name) identity
  if !validInterface node.interface then throw "invalid AWG interface"
  let output ← node.transfer
  parse output identity

/-- Each peer's counters from the transfer listing of all peers. -/
def split (text output : List Char) (peerName : String → String)
    (peers : List (String × String)) : List (Option Counters) :=
  peers.map fun (name, identity) =>
    match checkConfig text (peerName name) identity with
    | .error _ => none
    | .ok () => (parse output identity).toOption

/-- Counters of several peers, `(profile, identity)`, from one transfer listing; a peer
whose counters are unknown gets none. -/
def batch (node : Node) (peers : List (String × String)) : List (Option Counters) :=
  let listing := match node.config with
    | .error _ => none
    | .ok text =>
      if validInterface node.interface then node.transfer.toOption.map (text, ·) else none
  match listing with
  | none => List.replicate peers.length none
  | some (text, output) => split text output node.peerName peers

end Awg

/-- A node at one read: its engines, and what docker answers about a container before and
after the counters are read. -/
structure Node where
  xray : Xray.Node
  awg : Awg.Node
  boot : Except String (List Char)
  before : String → Inspection
  after : String → Inspection

def checkedEpoch (inspect : String → Inspection) (boot : Except String (List Char))
    (container : String) : Except String String :=
  if !validContainer container then .error "invalid protocol container"
  else containerEpoch (inspect container) boot

def Node.container (node : Node) (protocol : String) : String :=
  if protocol = "xray" then node.xray.container else node.awg.container

/-- The reading of a query. -/
def Query.snapshot (query : Query) (epoch : String) (counters : Counters) (inbounds : ByInbound) :
    Snapshot :=
  ⟨query.nodeKey, query.runtimeName, query.protocol, query.identity, epoch, counters.uplink,
    counters.downlink, inboundTraffic inbounds⟩

/-- The counters that a single read takes from its engine. -/
def Node.counters (node : Node) (query : Query) : Except String (Counters × ByInbound) :=
  if query.protocol = "xray" then Xray.counters node.xray query.runtimeName query.identity
  else (Awg.counters node.awg query.runtimeName query.identity).map fun counters => (counters, ∅)

def read (node : Node) (query : Query) : Except String Snapshot := do
  query.validate
  let container := node.container query.protocol
  let epoch ← checkedEpoch node.before node.boot container
  let (counters, inbounds) ← node.counters query
  let again ← checkedEpoch node.after node.boot container
  if again ≠ epoch then throw "protocol restarted during traffic observation"
  return query.snapshot epoch counters inbounds

def Batch.queries (batch : Batch) : List Query :=
  batch.items.map fun item => ⟨batch.nodeKey, item.runtimeName, item.protocol, item.identity⟩

/-- The pass of `read_batch` over one protocol. -/
def readProtocol (node : Node) (queries : List Query) (protocol : String) : List Snapshot :=
  let selected := queries.filter fun query => query.protocol = protocol
  if selected.isEmpty then []
  else
    let container := node.container protocol
    match checkedEpoch node.before node.boot container with
    | .error _ => []
    | .ok epoch =>
      let pairs := selected.map fun query => (query.runtimeName, query.identity)
      let counters :=
        if protocol = "xray" then Xray.batch node.xray pairs
        else (Awg.batch node.awg pairs).map (·.map fun counters => (counters, ∅))
      if (checkedEpoch node.after node.boot container).toOption ≠ some epoch then []
      else (selected.zip counters).filterMap fun (query, counters) =>
        counters.map fun (counters, inbounds) => query.snapshot epoch counters inbounds

/-- Every identity's counters, with one statistics read per protocol. An identity whose
counters are unknown is left out; a protocol restarted during the read leaves out all of its
identities. -/
def readBatch (node : Node) (batch : Batch) : Except String BatchSnapshot := do
  if maxBatch < batch.items.length then throw "too many traffic identities"
  batch.queries.forM Query.validate
  return ⟨batch.nodeKey, ["xray", "awg"].flatMap (readProtocol node batch.queries)⟩

end Readings
end NodePlane
