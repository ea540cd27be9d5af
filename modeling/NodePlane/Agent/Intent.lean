import NodePlane.Agent.Canonical
import NodePlane.Agent.Journal

/-! Profile intents: one VPN identity of one protocol, ensured or deleted at a
revision, and the checks every entry point makes of one. -/
namespace NodePlane

/-- Temporary access lasts 12 hours, a day or three days. -/
def leaseDurations : List Int := [43200, 86400, 259200]

/-- A nonempty text of at most `max` bytes; `allowed` admits ASCII only. -/
def matchesName (value : String) (max : Nat) (allowed : Char → Bool) : Bool :=
  1 ≤ value.utf8ByteSize && value.utf8ByteSize ≤ max && value.toList.all allowed

def commandId (value : String) : Bool :=
  matchesName value 128 fun c => c.isAlphanum || c ∈ ['_', '.', ':', '-']

def runtimeName (value : String) : Bool :=
  matchesName value 64 fun c => c.isAlphanum || c ∈ ['_', '-']

def hexDigitLower (c : Char) : Bool := c.isDigit || (97 ≤ c.toNat && c.toNat ≤ 102)

def hexDigitAny (c : Char) : Bool := hexDigitLower c || (65 ≤ c.toNat && c.toNat ≤ 70)

/-- `tmp_` and 32 lowercase hex digits: a temporary identity. -/
def temporaryName (value : String) : Bool :=
  let hex := value.toList.drop 4
  value.toList.take 4 == ['t', 'm', 'p', '_'] && hex.length == 32 && hex.all hexDigitLower

/-- `str::replace(sub, "")`; `skip` counts the rest of an occurrence. -/
def removeAll (sub : List Char) (skip : Nat) : List Char → List Char
  | [] => []
  | c :: cs =>
    match skip with
    | k + 1 => removeAll sub k cs
    | 0 => if sub.isPrefixOf (c :: cs) then removeAll sub (sub.length - 1) cs
      else c :: removeAll sub 0 cs

/-- What Python's `uuid.UUID` accepts from the controller. -/
def uuid (value : String) : Bool :=
  let bare := removeAll ['u', 'u', 'i', 'd', ':'] 0 (removeAll ['u', 'r', 'n', ':'] 0 value.toList)
  let brace := fun c => c ∈ ['{', '}']
  let hex := removeAll ['-'] 0 (((bare.dropWhile brace).reverse.dropWhile brace).reverse)
  hex.length == 32 && hex.all hexDigitAny

structure Intent where
  commandId : String
  protocol : String
  runtimeName : String
  revision : Int
  action : String
  uuid : String
  shortId : String
  leaseSeconds : Option Int
  deriving DecidableEq

namespace Intent

def ensure (i : Intent) : Bool := i.action == "ensure"

def target (i : Intent) : String × String := (i.protocol, i.runtimeName)

/-- Only an ensure of a temporary identity has a lifetime. -/
def validateLease (i : Intent) : Except String Unit :=
  match i.leaseSeconds with
  | some seconds =>
    if !leaseDurations.contains seconds || i.action ≠ "ensure" || !temporaryName i.runtimeName then
      .error "invalid temporary lease"
    else .ok ()
  | none => .ok ()

def validate (i : Intent) : Except String Unit :=
  if !NodePlane.commandId i.commandId then .error "invalid command identity"
  else if !NodePlane.runtimeName i.runtimeName then .error "invalid runtime name"
  else if i.revision ≤ 0 then .error "invalid revision"
  else if !(["awg", "xray"].contains i.protocol) || !(["ensure", "delete"].contains i.action) then
    .error "invalid intent"
  else if i.protocol == "xray" && i.action == "ensure" then
    if !NodePlane.uuid i.uuid || !(i.shortId.utf8ByteSize == 16 && i.shortId.toList.all hexDigitAny)
    then .error "invalid xray identity"
    else i.validateLease
  else if i.uuid ≠ "" || i.shortId ≠ "" then .error "unexpected identity"
  else i.validateLease

def keys : List String :=
  ["command_id", "protocol", "runtime_name", "revision", "action", "uuid", "short_id"]

/-- A checked intent from its JSON form. -/
def parse (value : Json) : Except String Intent := do
  let invalid := "invalid command identity"
  let map ← value.asObject.elim (.error invalid) .ok
  let lease := Json.containsKey map "lease_seconds"
  if !Json.only map (if lease then "lease_seconds" :: keys else keys) then .error invalid
  let text (key : String) : Except String String := (value.field key).asStr.elim (.error invalid) .ok
  let integer (key error : String) : Except String Int :=
    (value.field key).asI64.elim (.error error) .ok
  let commandId ← text "command_id"
  let protocol ← text "protocol"
  let runtimeName ← text "runtime_name"
  let revision ← integer "revision" "invalid revision"
  let action ← text "action"
  let uuid ← text "uuid"
  let shortId ← text "short_id"
  let leaseSeconds ← if lease then some <$> integer "lease_seconds" "invalid temporary lease"
    else .ok none
  let intent : Intent :=
    ⟨commandId, protocol, runtimeName, revision, action, uuid, shortId, leaseSeconds⟩
  intent.validate
  return intent

def toValue (i : Intent) : Json :=
  let value := Json.object [("command_id", .str i.commandId), ("protocol", .str i.protocol),
    ("runtime_name", .str i.runtimeName), ("revision", .int i.revision), ("action", .str i.action),
    ("uuid", .str i.uuid), ("short_id", .str i.shortId)]
  match i.leaseSeconds with
  | some seconds => value.set "lease_seconds" (.int seconds)
  | none => value

def fingerprint (p : Platform) (i : Intent) : String := p.fingerprint i.toValue

/-- The members in the order the fingerprint hashes them. -/
theorem toValue_members (i : Intent) : i.toValue = .obj (("action", .str i.action) ::
    ("command_id", .str i.commandId) ::
    ((i.leaseSeconds.elim [] fun seconds => [("lease_seconds", Json.int seconds)]) ++
      [("protocol", .str i.protocol), ("revision", .int i.revision),
        ("runtime_name", .str i.runtimeName), ("short_id", .str i.shortId),
        ("uuid", .str i.uuid)])) := by
  unfold toValue
  cases i.leaseSeconds <;> simp +decide [Json.object, Json.set, Json.insertMember]

theorem toValue_injective : Function.Injective toValue := by
  intro i j same
  rw [toValue_members, toValue_members] at same
  obtain ⟨id, protocol, name, revision, action, uuid, short, lease⟩ := i
  obtain ⟨id', protocol', name', revision', action', uuid', short', lease'⟩ := j
  cases lease <;> cases lease' <;> simp_all

theorem validate_target {i : Intent} (valid : i.validate = .ok ()) :
    0 < i.revision ∧ (i.ensure = true ∨ i.action = "delete") := by
  unfold validate at valid
  split_ifs at valid with identity name revision kind
  all_goals
    simp only [Bool.or_eq_true, Bool.not_eq_true', not_or, Bool.not_eq_false] at kind
    refine ⟨by omega, ?_⟩
    simpa [ensure] using kind.2

theorem validate_shape {i : Intent} (valid : i.validate = .ok ()) :
    NodePlane.runtimeName i.runtimeName = true ∧ ["awg", "xray"].contains i.protocol = true := by
  unfold validate at valid
  split_ifs at valid with identity name revision kind
  all_goals
    simp only [Bool.or_eq_true, Bool.not_eq_true', not_or, Bool.not_eq_false] at kind
    exact ⟨by simpa using name, kind.1⟩

/-- A lifetime comes only with an ensure. -/
theorem validate_lease {i : Intent} (valid : i.validate = .ok ())
    (lease : i.leaseSeconds.isSome) : i.ensure = true := by
  have checked : i.validateLease = .ok () := by
    unfold validate at valid
    split_ifs at valid <;> exact valid
  unfold validateLease at checked
  cases seconds : i.leaseSeconds with
  | none => simp [seconds] at lease
  | some s =>
    rw [seconds] at checked
    by_contra no
    simp [ensure] at no
    simp [no] at checked

end Intent
end NodePlane
