import Mathlib.Data.List.DropRight
import NodePlane.Awg.Addresses

/-! AWG peers in a server config. A peer is the block that starts at its `# <name>` comment line and ends
at the next blank line. Revoked peers are archived, bound to the server by the fingerprint of its private
key; an add brings an archived peer back or issues a new one. A command is the writes that it makes in
order, so that it can end after any of them. -/
namespace NodePlane
namespace Peers
open Library Readings Tunnel

/-- A revoked peer: the server it belonged to and its original block. -/
structure Archive where
  server : String
  peer : List Char
  deriving DecidableEq

/-- `wg0.conf` and what the clients directory holds: `<name>.revoked.json` and `<name>.txt`. -/
structure Files where
  config : List Char
  archives : BTreeMap String Archive
  saved : BTreeMap String (List Char)

inductive Write
  | config (text : List Char)
  | archive (name : String) (record : Archive)
  | dropArchive (name : String)
  | saved (name : String) (text : List Char)
  deriving DecidableEq

def Files.write (files : Files) : Write → Files
  | .config text => { files with config := text }
  | .archive name record => { files with archives := files.archives.insert name record }
  | .dropArchive name => { files with archives := files.archives.erase name }
  | .saved name text => { files with saved := files.saved.insert name text }

def Files.writes (files : Files) (list : List Write) : Files := list.foldl Files.write files

/-! Texts of the config. -/

/-- `split(pattern)`, with the symbols of a pattern that are still to be passed over. -/
def splitFrom (pattern : List Char) : ℕ → List Char → List (List Char)
  | _, [] => [[]]
  | skip + 1, _ :: rest => splitFrom pattern skip rest
  | 0, c :: rest =>
    if pattern.isPrefixOf (c :: rest) then [] :: splitFrom pattern (pattern.length - 1) rest
    else (splitFrom pattern 0 rest).modifyHead (c :: ·)

def peerTag : List Char := "[Peer]".toList

/-- The config around its `[Peer]` lines: the interface, then each peer. -/
def sections (text : List Char) : List (List Char) := splitFrom peerTag 0 text

/-- `peer_blocks`. -/
def peerBlocks (text : List Char) : List (List Char) := (sections text).drop 1

def field (text : List Char) (key : String) : Option (List Char) :=
  (Awg.fields text)[key]?.map String.toList

/-- SHA-256 of the server private key, as hex. -/
def fingerprint (sha256Hex : String → String) (text : List Char) : Except String String :=
  match (field ((sections text).headD []) "PrivateKey").getD [] with
  | [] => .error "Server private key is missing"
  | key => .ok (sha256Hex (String.ofList key))

def comment (name : String) : List Char := ("# " ++ name).toList

def trimEnd (text : List Char) : List Char := text.rdropWhile whitespace

def blankOrTab (c : Char) : Bool := c = ' ' || c = '\t'

/-- The value of an `AllowedIPs` line. -/
def allowedIps (content : List Char) : Option (List Char) := do
  let rest ← stripPrefix content "AllowedIPs".toList
  let value ← stripPrefix (rest.dropWhile blankOrTab) ['=']
  return value.dropWhile blankOrTab

def migrateLines : Bool → List (List Char) → Except String (List Char)
  | _, [] => .ok []
  | seen, line :: rest =>
    let (content, ending) := if line.getLast? = some '\n' then (line.dropLast, ['\n']) else (line, [])
    let seen := seen || trim content = peerTag
    match allowedIps content with
    | some value =>
      if seen ∧ value ≠ [] then do
        let both ← dualAddresses value
        return "AllowedIPs = ".toList ++ both ++ ending ++ (← migrateLines seen rest)
      else do return line ++ (← migrateLines seen rest)
    | none => do return line ++ (← migrateLines seen rest)

/-- AllowedIPs lines get the peer's managed IPv6 address. -/
def migratePeer (block : List Char) : Except String (List Char) :=
  migrateLines false (splitInclusive block)

def splitList (value : List Char) : List (List Char) := (value.splitOn ',').map trim

/-! Revocation. -/

/-- The archive is written before the config, and both before the live interface. -/
def revoke (sha256Hex : String → String) (files : Files) (name : String) : List Write :=
  let (current, peer) := Awg.splitPeer files.config name
  if peer = [] then []
  else match fingerprint sha256Hex files.config with
    | .error _ => []
    | .ok server => [.archive name ⟨server, peer⟩, .config current]

/-! Issue. -/

/-- Brings a revoked peer back from its archive. `false` when there is nothing to restore: no archive,
no client config, another server, or its address taken meanwhile (the archive is then dropped). -/
def restore (sha256Hex : String → String) (files : Files) (name : String) :
    Except String (Bool × List Write) :=
  match files.archives[name]?, files.saved[name]? with
  | some record, some _ => do
    if record.server ≠ (← fingerprint sha256Hex files.config) then return (false, [.dropArchive name])
    let peer ← migratePeer record.peer
    let (current, present) := Awg.splitPeer files.config name
    let reserved := (peerBlocks current).flatMap fun block =>
      splitList ((field block "AllowedIPs").getD [])
    let allowed := splitList ((field peer "AllowedIPs").getD [])
    if present = [] ∧ allowed.any (· ∈ reserved) then return (false, [.dropArchive name])
    return (true, [.config (trimEnd current ++ ['\n', '\n'] ++ trimEnd peer ++ ['\n'])])
  | _, _ => .ok (false, [])

def publicKey (block : List (List Char)) : Option (List Char) :=
  (block.findSome? fun line => stripPrefix line "PublicKey = ".toList).bind fun rest =>
    (splitWhitespace rest).head?

/-- Removes a peer that has no saved client config; the blank line after the block goes with it. -/
def removeOrphan (text : List Char) (name : String) : Except String (List Char) :=
  match (splitInclusive text).span fun line => line.rdropWhile (· = '\n') ≠ comment name with
  | (_, []) => .error "peer is missing"
  | (head, _ :: tail) =>
    let (block, rest) := tail.span fun line => trim line ≠ []
    match publicKey block with
    | none => .error ("Existing AWG peer has no public key: " ++ name)
    | some _ => .ok (head ++ rest.drop 1).flatten

/-- One address without its prefix, as the standard library prints it. -/
def address (value : List Char) : Except String (List Char) :=
  match IpAddr.parse (splitSlash (trim value)).1 with
  | some ip => .ok ip.show
  | none => .error ("invalid address: " ++ String.ofList value)

/-- The addresses of `wg show allowed-ips`. -/
def liveAddresses (live : List Char) : List (List Char) :=
  ((lines live).filterMap fun line => match line.span (· ≠ '\t') with
    | (_, []) => none
    | (_, _ :: ips) => some ips).flatMap fun ips =>
      (ips.splitOnP fun c => c = ',' || c = ' ').map fun part => (splitSlash part).1

def diskAddresses (block : List Char) : Except String (List (List Char)) :=
  let value := (((field block "AllowedIPs").filter (· ≠ [])).or (field block "Address")).getD []
  ((value.splitOn ',').filter fun part => trim part ≠ []).mapM address

def heldAddresses (peer : List Char) : Except String (List (List Char)) :=
  (((field peer "AllowedIPs").getD []).splitOn ',').mapM address

/-- Addresses in use: live, on disk and held by archives of this server. -/
def usedAddresses (sha256Hex : String → String) (text : List Char) (archives : BTreeMap String Archive)
    (live : List Char) : Except String (List (List Char)) := do
  let disk ← (sections text).mapM diskAddresses
  let server ← fingerprint sha256Hex text
  let held ← (archives.toList.filter fun entry => entry.2.server = server).mapM fun entry =>
    heldAddresses entry.2.peer
  return liveAddresses live ++ disk.flatten ++ held.flatten

def newBlock (name : String) (key preshared addresses : List Char) : List Char :=
  ['\n'] ++ comment name ++ "\n[Peer]\nPublicKey = ".toList ++ key ++ "\nPresharedKey = ".toList ++
    preshared ++ "\nAllowedIPs = ".toList ++ addresses ++ ['\n']

/-- What the interface and the key generator answer to one add, and the client config it delivers. -/
structure Answers where
  live : List Char
  publicKey : List Char
  preshared : List Char
  client : List Char
  deriving DecidableEq

/-- The addresses of a new peer. -/
def newAddresses (used : List (List Char)) : Except String (List Char) :=
  match freeAddress used with
  | none => .error "No free AWG addresses"
  | some free => dualAddresses (free.show ++ "/32".toList)

/-- A new peer, behind the config's last line. -/
def issue (sha256Hex : String → String) (files : Files) (name : String) (answers : Answers) : List Write :=
  match usedAddresses sha256Hex files.config files.archives answers.live >>= newAddresses with
  | .error _ => []
  | .ok addresses =>
    [.config (files.config ++ newBlock name answers.publicKey answers.preshared addresses),
      .saved name answers.client]

/-- An add without an archive to restore: a peer with a saved client config stays, another is replaced. -/
def reissue (sha256Hex : String → String) (files : Files) (name : String) (answers : Answers) : List Write :=
  if comment name ∈ lines files.config then
    if (files.saved[name]?.getD []) ≠ [] then []
    else match removeOrphan files.config name with
      | .error _ => []
      | .ok remaining =>
        .config remaining :: issue sha256Hex (files.write (.config remaining)) name answers
  else issue sha256Hex files name answers

/-- Issues the peer, or returns its saved client config. -/
def add (sha256Hex : String → String) (files : Files) (name : String) (answers : Answers) : List Write :=
  match restore sha256Hex files name with
  | .error _ => []
  | .ok (true, writes) => writes
  | .ok (false, writes) => writes ++ reissue sha256Hex (files.writes writes) name answers

/-! The commands of an agent. -/

def nameChar (c : Char) : Bool := c.isAlphanum || ['.', '_', '-'].contains c

/-- The server's key, a name itself, stands before the profile's name. -/
structure Host where
  sha256Hex : String → String
  serverKey : String
  named : serverKey.toList.all nameChar = true

def Host.peerName (h : Host) (profile : String) : String :=
  if h.serverKey.isEmpty then profile else h.serverKey ++ "-" ++ profile

/-- The peer of a valid profile name. -/
def Host.peer (h : Host) (profile : String) : Option String :=
  if validName profile && (h.peerName profile).toList.all nameChar then some (h.peerName profile) else none

/-- Removes journaled temporary identities from a stopped container's config, without an archive. -/
def pruneConfig (h : Host) (files : Files) (names : List String) : List Write :=
  if names.any fun name => !temporaryName name then []
  else
    let updated := names.foldl (fun text name => (Awg.splitPeer text (h.peerName name)).1) files.config
    if updated = files.config then [] else [.config updated]

inductive Command
  | add (profile : String) (answers : Answers)
  | revoke (profile : String)
  | prune (names : List String)

def Command.writes (h : Host) (files : Files) : Command → List Write
  | .add profile answers => match h.peer profile with
    | none => []
    | some peer => Peers.add h.sha256Hex files peer answers
  | .revoke profile => match h.peer profile with
    | none => []
    | some peer => Peers.revoke h.sha256Hex files peer
  | .prune names => pruneConfig h files names

/-- A command that fails or stops after its first `done` writes. -/
def step (h : Host) (files : Files) (move : Command × ℕ) : Files :=
  files.writes ((move.1.writes h files).take move.2)

def after (h : Host) (files : Files) (run : List (Command × ℕ)) : Files := run.foldl (step h) files

end Peers
end NodePlane
