import NodePlane.Library.Regex
import NodePlane.Library.Table
import NodePlane.Awg.Profile

/-! The controller's validation of manual AmneziaWG parameters. -/
namespace NodePlane
namespace Awg
namespace Parameters
open Library Library.Regex
open RegularExpression (char)

def allFields : List String := legacyFields ++ awg3Fields

/-- The parameters by field. -/
abbrev Dict := String → Option String

/-- `values.get(key)`, the empty text where it is missing; both are false. -/
def Dict.get (values : Dict) (key : String) : String := (values key).getD ""

/-- `{!r}` of a printable text. -/
def repr (text : String) : String :=
  let chars := text.toList
  let (single, double) := (Char.ofNat 39, Char.ofNat 34)
  let quote := if single ∈ chars ∧ double ∉ chars then double else single
  String.ofList ([quote] ++ chars.flatMap (fun c => if c = quote ∨ c = '\\' then ['\\', c] else [c]) ++
    [quote])

def protocolVersion (values : Dict) : Except String Version :=
  let off key := (values.get key).toLower ≠ "on" ∧ (values.get key).toLower ≠ "off"
  if values.get "HeaderProtectionKey" ≠ "" then
    if off "RandomTrailers" ∨ off "DisableCookies" then .error "Incomplete AWG 3.1 profile"
    else .ok .threeOne
  else if awg3Fields.any fun key => values.get key ≠ "" then
    .error "AWG 3.x fields without HeaderProtectionKey"
  else .ok .two

def digit : List Char := "0123456789".toList

def hexadecimal : List Char := "0123456789abcdefABCDEF".toList

/-- `[0-9]+(?:-[0-9]+)?`. -/
def rangeExpression : RegularExpression Char :=
  plus (oneOf digit) * (1 + char '-' * plus (oneOf digit))

/-- `(?:<(?:b 0x[0-9a-fA-F]+|[r](?: \d+)|r[cd] \d+|t)>)+`, of a text without digits beyond 0-9. -/
def patternExpression : RegularExpression Char :=
  plus (char '<' *
    (literal "b 0x".toList * plus (oneOf hexadecimal) +
      char 'r' * (char ' ' * plus (oneOf digit)) +
      char 'r' * oneOf ['c', 'd'] * char ' ' * plus (oneOf digit) +
      char 't') *
    char '>')

/-- `int` of decimal digits. -/
def int (text : List Char) : ℕ := Nat.ofDigitChars 10 text 0

def range (value : String) (maximum minimum : ℕ) : Except String (ℕ × ℕ) :=
  if !fullmatch rangeExpression value.toList then
    .error ("Invalid numeric range: " ++ repr value)
  else
    let (low, high) := match splitOnce '-' value.toList with
      | some (low, high) => (int low, int high)
      | none => (int value.toList, int value.toList)
    if low < minimum ∨ low > high ∨ high > maximum then
      .error ("Out-of-range value: " ++ repr value)
    else .ok (low, high)

def single (value : String) (maximum : ℕ) : Except String ℕ :=
  if !fullmatch (plus (oneOf digit)) value.toList || int value.toList > maximum then
    .error ("Invalid integer: " ++ repr value)
  else .ok (int value.toList)

/-- A match at the start: the opening, a run of the class, taken whole, and the closing bracket. -/
def tagMatch (opening letters text : List Char) : Option (List Char × ℕ) :=
  if opening.isPrefixOf text then
    let run := (text.drop opening.length).takeWhile (· ∈ letters)
    if run ≠ [] ∧ (text.drop (opening.length + run.length)).head? = some '>' then
      some (run, opening.length + run.length + 1)
    else none
  else none

/-- `<b 0x([0-9a-fA-F]+)>`. -/
def hexMatch (text : List Char) : Option (List Char × ℕ) :=
  tagMatch "<b 0x".toList hexadecimal text

/-- `<(r|rc|rd) (\d+)>`. -/
def lengthMatch (text : List Char) : Option ((String × List Char) × ℕ) :=
  let named (name : String) : Option ((String × List Char) × ℕ) := (tagMatch ('<' :: name.toList ++ [' ']) digit text).map
    fun (run, length) => ((name, run), length)
  named "r" <|> named "rc" <|> named "rd"

def checkPattern (values : Dict) (key : String) : Except String Unit :=
  let expression := (values.get key).toList
  if !fullmatch patternExpression expression then
    .error ("Invalid " ++ key ++ " CPS expression")
  else if (findall hexMatch expression).any fun hex => hex.length % 2 ≠ 0 then
    .error (key ++ " contains odd-length hex data")
  else
    match (findall lengthMatch expression).find? fun (_, length) => 1000 < int length with
    | some (tag, _) => .error (key ++ " " ++ tag ++ " length exceeds 1000")
    | none => .ok ()

/-- Each range against those before it. -/
def overlapping : List (ℕ × ℕ) → List (ℕ × ℕ) → Bool
  | _, [] => false
  | before, (low, high) :: rest =>
    before.any (fun (otherLow, otherHigh) => low ≤ otherHigh && otherLow ≤ high) ||
      overlapping (before ++ [(low, high)]) rest

def checkProtected (values : Dict) : Except String Unit := do
  match Base64.strict (values.get "HeaderProtectionKey").toList with
  | none => .error "Invalid HeaderProtectionKey"
  | some key =>
    if key.length ≠ 32 then .error "HeaderProtectionKey must contain 32 bytes"
    else do
      if values.get "ContentPaddingAddition" ≠ "" then
        let _ ← range (values.get "ContentPaddingAddition") 65535 0
      timingFields.forM fun key =>
        if values.get key ≠ "" then do
          let _ ← range (values.get key) 65535 1
        else .ok ()
      let either key default := if values.get key = "" then default else values.get key
      let rekey ← range (either "RekeyAfterTime" "120") 65535 1
      let reject ← range (either "RejectAfterTime" "180") 65535 1
      if rekey.2 ≥ reject.1 then
        .error "RekeyAfterTime must finish before RejectAfterTime"
      else .ok ()

/-- `validate` of the profile, which must be AWG 3.1. -/
def validate (values : Dict) : Except String Unit := do
  let version ← protocolVersion values
  if version ≠ .threeOne then
    throw "AWG 3.1 profile is required"
  legacyFields.forM fun key =>
    if values.get key = "" then .error ("Missing AWG field: " ++ key) else .ok ()
  let jmin ← single (values.get "Jmin") 65535
  let jmax ← single (values.get "Jmax") 65535
  if jmin > jmax then
    throw "Jmin exceeds Jmax"
  let _ ← single (values.get "Jc") 65535
  paddingLimits.forM fun (key, maximum) => do
    let size ← single (values.get key) maximum
    if version = .threeOne ∧ size < 12 then
      .error ("Invalid " ++ key ++ " for header protection")
    else .ok ()
  if int (values.get "S1").toList + 56 = int (values.get "S2").toList then
    throw "S1 and S2 produce equal handshake packet sizes"
  let ranges ← headerFields.mapM fun key => range (values.get key) 4294967295 0
  if overlapping [] ranges then
    throw "Overlapping H1-H4 ranges"
  patternFields.forM (checkPattern values)
  if version = .threeOne then checkProtected values else .ok ()

/-- A parameter's value is a printable ASCII text of at most 4096 letters. -/
def acceptable (value : Json) : Bool :=
  value.asStr.any fun text =>
    text ≠ "" && text.length ≤ 4096 && text.toList.all fun c => 32 ≤ c.toNat && c.toNat ≤ 126

/-- `validate_parameters`. -/
def validateParameters (values : Table String Json) : Except String Unit :=
  if values.has fun key _ => !allFields.contains key then .error "unknown AWG parameters"
  else if values.rows.isEmpty then .ok ()
  else if values.has fun _ value => !acceptable value then .error "invalid AWG parameter value"
  else validate fun key => (values.lookup key).bind Json.asStr

end Parameters
end Awg
end NodePlane
