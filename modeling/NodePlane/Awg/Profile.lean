import NodePlane.Library.Base64
import NodePlane.Agent.Json

/-! The agent's AmneziaWG profiles: the fields of an interface, their validation and the manual
parameters. -/
namespace NodePlane
namespace Awg
open Library

def legacyFields : List String :=
  ["Jc", "Jmin", "Jmax", "S1", "S2", "S3", "S4", "H1", "H2", "H3", "H4", "I1", "I2", "I3", "I4",
    "I5"]

def awg3Fields : List String :=
  ["HeaderProtectionKey", "ContentPaddingAddition", "RekeyAfterTime", "RekeyTimeout",
    "RejectAfterTime", "KeepaliveTimeout", "MaxHandshakeAttempts", "RandomTrailers",
    "DisableCookies"]

def timingFields : List String :=
  ["RekeyAfterTime", "RekeyTimeout", "RejectAfterTime", "KeepaliveTimeout", "MaxHandshakeAttempts"]

def paddingLimits : List (String × ℕ) :=
  [("S1", 1700 - 148), ("S2", 1700 - 92), ("S3", 1700 - 64), ("S4", 32)]

def headerFields : List String := ["H1", "H2", "H3", "H4"]

def patternFields : List String := ["I1", "I2", "I3", "I4", "I5"]

/-- Interface values in config order. -/
structure Values where
  entries : List (String × String)
  deriving DecidableEq, Repr

namespace Values

def get (values : Values) (key : String) : String := (values.entries.lookup key).getD ""

def setEntry (key value : String) : List (String × String) → List (String × String)
  | [] => [(key, value)]
  | (name, old) :: rest =>
    if name = key then (name, value) :: rest else (name, old) :: setEntry key value rest

def set (values : Values) (key value : String) : Values := ⟨setEntry key value values.entries⟩

@[simp] theorem get_empty (key : String) : get ⟨[]⟩ key = "" := rfl

@[simp] theorem get_set (values : Values) (key other value : String) :
    (values.set key value).get other = if other = key then value else values.get other := by
  obtain ⟨entries⟩ := values
  show ((setEntry key value entries).lookup other).getD "" = _
  induction entries with
  | nil =>
    by_cases same : other = key
    · subst same
      simp [setEntry]
    · simp [setEntry, List.lookup_cons, beq_eq_false_iff_ne.mpr same, same, get]
  | cons entry rest ih =>
    obtain ⟨name, old⟩ := entry
    by_cases here : name = key
    · subst here
      by_cases same : other = name
      · subst same
        simp [setEntry]
      · simp [setEntry, List.lookup_cons, beq_eq_false_iff_ne.mpr same, same, get]
    · rw [setEntry, if_neg here]
      by_cases same : other = name
      · subst same
        simp [here, get]
      · simp only [get, List.lookup_cons, beq_eq_false_iff_ne.mpr same] at ih ⊢
        exact ih

end Values

/-- `{:?}` of a printable text. -/
def debug (text : String) : String :=
  "\"" ++ String.ofList (text.toList.flatMap fun c =>
    if c = Char.ofNat 34 ∨ c = '\\' then ['\\', c] else [c]) ++ "\""

inductive Version | two | threeOne
  deriving DecidableEq, Repr

def switch (values : Values) (key : String) : Bool :=
  (values.get key).toLower = "on" || (values.get key).toLower = "off"

def protocolVersion (values : Values) : Except String Version :=
  if values.get "HeaderProtectionKey" ≠ "" then
    if !switch values "RandomTrailers" || !switch values "DisableCookies" then
      .error "Incomplete AWG 3.1 profile"
    else .ok .threeOne
  else if awg3Fields.any fun key => values.get key ≠ "" then
    .error "AWG 3.x fields without HeaderProtectionKey"
  else .ok .two

def digits (text : List Char) : Bool := !text.isEmpty && text.all Char.isDigit

/-- A decimal number; one too large for 64 bits is larger than every bound. Every caller has
checked the digits. -/
def number (text : List Char) : ℕ :=
  let n := Nat.ofDigitChars 10 text 0
  if digits text && n < 2 ^ 64 then n else 2 ^ 64 - 1

def splitOnce (sep : Char) (text : List Char) : Option (List Char × List Char) :=
  match text.dropWhile (· ≠ sep) with
  | [] => none
  | _ :: rest => some (text.takeWhile (· ≠ sep), rest)

def range (value : String) (maximum minimum : ℕ) : Except String (ℕ × ℕ) :=
  let (low, high) := (splitOnce '-' value.toList).getD (value.toList, value.toList)
  if !digits low || !digits high then .error ("Invalid numeric range: " ++ debug value)
  else
    let (low, high) := (number low, number high)
    if low < minimum || low > high || high > maximum then
      .error ("Out-of-range value: " ++ debug value)
    else .ok (low, high)

def single (value : String) (maximum : ℕ) : Except String ℕ :=
  if !digits value.toList || number value.toList > maximum then
    .error ("Invalid integer: " ++ debug value)
  else .ok (number value.toList)

def hexDigit (c : Char) : Bool :=
  c.isDigit || ('a' ≤ c && c ≤ 'f') || ('A' ≤ c && c ≤ 'F')

/-- A tag of a CPS expression between its brackets. -/
def cpsTag (tag : List Char) : Option (String × List Char) :=
  match splitOnce ' ' tag with
  | none => if tag = ['t'] then some ("t", []) else none
  | some (['b'], '0' :: 'x' :: hex) =>
    if hex ≠ [] ∧ hex.all hexDigit then some ("b", hex) else none
  | some (['r'], length) => if digits length then some ("r", length) else none
  | some (['r', 'c'], length) => if digits length then some ("rc", length) else none
  | some (['r', 'd'], length) => if digits length then some ("rd", length) else none
  | some _ => none

/-- The loop of `cps_tags`; a turn reads two letters at least. -/
def cpsTagsFrom : ℕ → List Char → Option (List (String × List Char))
  | _, [] => some []
  | 0, _ :: _ => none
  | fuel + 1, c :: inner =>
    if c = '<' then do
      let (tag, rest) ← splitOnce '>' inner
      let parsed ← cpsTag tag
      return parsed :: (← cpsTagsFrom fuel rest)
    else none

/-- `cps_tags`: the tags `<b 0xHEX>`, `<r N>`, `<rc N>`, `<rd N>` and `<t>`. -/
def cpsTags (expression : List Char) : Option (List (String × List Char)) := do
  let tags ← cpsTagsFrom expression.length expression
  if tags.isEmpty then none else some tags

/-- `strict_base64`. -/
def strictBase64 (value : List Char) : Option (List ℕ) :=
  let body := Base64.trimEnd (· == '=') value
  if value.length % 4 = 0 ∧ value.length - body.length ≤ 2 ∧
      body.all (fun c => c.isAlphanum || c == '+' || c == '/') then
    Base64.decode value
  else none

/-- The headers' ranges, none of which overlaps an earlier one. -/
def headersFrom (values : Values) : List (ℕ × ℕ) → List String → Except String Unit
  | _, [] => .ok ()
  | ranges, key :: rest => do
    let (low, high) ← range (values.get key) 4294967295 0
    if ranges.any fun (otherLow, otherHigh) => low ≤ otherHigh && otherLow ≤ high then
      .error "Overlapping H1-H4 ranges"
    else headersFrom values (ranges ++ [(low, high)]) rest

/-- The pattern of one of the fields I1 to I5. -/
def checkPattern (values : Values) (key : String) : Except String Unit :=
  match cpsTags (values.get key).toList with
  | none => .error ("Invalid " ++ key ++ " CPS expression")
  | some tags =>
    if tags.any fun (tag, hex) => tag == "b" && hex.length % 2 != 0 then
      .error (key ++ " contains odd-length hex data")
    else
      match tags.find? fun (tag, length) =>
        (tag == "r" || tag == "rc" || tag == "rd") && 1000 < number length with
      | some (tag, _) => .error (key ++ " " ++ tag ++ " length exceeds 1000")
      | none => .ok ()

/-- A value, or the engine's default where it is missing. -/
def orDefault (values : Values) (key default : String) : String :=
  if values.get key = "" then default else values.get key

def checkProtected (values : Values) : Except String Unit := do
  match strictBase64 (values.get "HeaderProtectionKey").toList with
  | none => .error "Invalid HeaderProtectionKey"
  | some key =>
    if key.length ≠ 32 then .error "HeaderProtectionKey must contain 32 bytes"
    else do
      if values.get "ContentPaddingAddition" ≠ "" then
        let _ ← range (values.get "ContentPaddingAddition") 65535 0
      timingFields.forM fun key =>
        if values.get key ≠ "" then do
          let _ ← range (values.get key) 65535 1
        else .ok ()
      let rekey ← range (orDefault values "RekeyAfterTime" "120") 65535 1
      let reject ← range (orDefault values "RejectAfterTime" "180") 65535 1
      if rekey.2 ≥ reject.1 then
        .error "RekeyAfterTime must finish before RejectAfterTime"
      else .ok ()

def validate (values : Values) (require31 : Bool) : Except String Unit := do
  let version ← protocolVersion values
  if require31 && version != .threeOne then
    throw "AWG 3.1 profile is required"
  legacyFields.forM fun key =>
    if values.get key = "" then .error ("Missing AWG field: " ++ key) else .ok ()
  let jmin ← single (values.get "Jmin") 65535
  let jmax ← single (values.get "Jmax") 65535
  if jmin > jmax then
    throw "Jmin exceeds Jmax"
  let _ ← single (values.get "Jc") 65535
  paddingLimits.forM fun (key, maximum) => do
    let size ← single (values.get key) maximum
    if version = .threeOne ∧ size < 12 then
      .error ("Invalid " ++ key ++ " for header protection")
    else .ok ()
  if number (values.get "S1").toList + 56 = number (values.get "S2").toList then
    throw "S1 and S2 produce equal handshake packet sizes"
  headersFrom values [] headerFields
  patternFields.forM (checkPattern values)
  if version = .threeOne then checkProtected values else .ok ()

/-- The loop of `manual` over the members of the object. -/
def manualFrom : Values → List (String × Json) → Except String Values
  | values, [] => .ok values
  | values, (key, value) :: rest =>
    match value.asStr with
    | none => .error "invalid manual AWG parameters"
    | some text =>
      if !(legacyFields.contains key || awg3Fields.contains key) || text = "" ||
          4096 < text.utf8ByteSize || text.toList.any (fun c => c.toNat < 32 || 126 < c.toNat) then
        .error "invalid manual AWG parameters"
      else manualFrom (values.set key text) rest

/-- `manual`: parameters from a JSON object, checked as the controller does. -/
def manual (parameters : Json) : Except String Values := do
  match parameters.asObject with
  | none => .error "invalid manual AWG parameters"
  | some object =>
    let values ← manualFrom ⟨[]⟩ object
    validate values true
    return values

end Awg
end NodePlane
