import Mathlib.Data.List.Basic
import Mathlib.Data.Int.Basic

/-! The JSON values of the agent's requests, journal and replies, and the
canonical text that command fingerprints hash. -/
namespace NodePlane

/-- The symbols of a printed number. -/
def numberChar (c : Char) : Bool := c.isDigit || c ∈ ['-', '+', '.', 'e']

/-- A floating number by its printed text, never that of an integer. -/
@[ext] structure FloatText where
  text : String
  number : text.toList.all numberChar = true
  fractional : text.toList.any (fun c => c ∈ ['.', 'e']) = true
  deriving DecidableEq

/-- `serde_json::Value`; an object's members stand in ascending key order, as
its map keeps them. -/
inductive Json where
  | null
  | bool (b : Bool)
  | int (n : Int)
  | float (x : FloatText)
  | str (s : String)
  | arr (items : List Json)
  | obj (members : List (String × Json))

namespace Json

mutual
private def decEq : (v w : Json) → Decidable (v = w)
  | .null, .null => isTrue rfl
  | .bool a, .bool b => decidable_of_iff (a = b) (by simp)
  | .int a, .int b => decidable_of_iff (a = b) (by simp)
  | .float a, .float b => decidable_of_iff (a = b) (by simp)
  | .str a, .str b => decidable_of_iff (a = b) (by simp)
  | .arr a, .arr b => match decEqItems a b with
    | isTrue h => isTrue (by rw [h])
    | isFalse h => isFalse (by simpa using h)
  | .obj a, .obj b => match decEqMembers a b with
    | isTrue h => isTrue (by rw [h])
    | isFalse h => isFalse (by simpa using h)
  | .null, .bool _ | .null, .int _ | .null, .float _ | .null, .str _ | .null, .arr _
  | .null, .obj _ | .bool _, .null | .bool _, .int _ | .bool _, .float _ | .bool _, .str _
  | .bool _, .arr _ | .bool _, .obj _ | .int _, .null | .int _, .bool _ | .int _, .float _
  | .int _, .str _ | .int _, .arr _ | .int _, .obj _ | .float _, .null | .float _, .bool _
  | .float _, .int _ | .float _, .str _ | .float _, .arr _ | .float _, .obj _ | .str _, .null
  | .str _, .bool _ | .str _, .int _ | .str _, .float _ | .str _, .arr _ | .str _, .obj _
  | .arr _, .null | .arr _, .bool _ | .arr _, .int _ | .arr _, .float _ | .arr _, .str _
  | .arr _, .obj _ | .obj _, .null | .obj _, .bool _ | .obj _, .int _ | .obj _, .float _
  | .obj _, .str _ | .obj _, .arr _ => isFalse (by simp)

private def decEqItems : (v w : List Json) → Decidable (v = w)
  | [], [] => isTrue rfl
  | [], _ :: _ | _ :: _, [] => isFalse (by simp)
  | a :: as, b :: bs => match decEq a b, decEqItems as bs with
    | isTrue h, isTrue hs => isTrue (by rw [h, hs])
    | isFalse h, _ => isFalse fun same => h (List.cons.inj same).1
    | _, isFalse hs => isFalse fun same => hs (List.cons.inj same).2

private def decEqMembers : (v w : List (String × Json)) → Decidable (v = w)
  | [], [] => isTrue rfl
  | [], _ :: _ | _ :: _, [] => isFalse (by simp)
  | (j, a) :: as, (k, b) :: bs => match decEq a b, decEqMembers as bs with
    | isTrue h, isTrue hs => decidable_of_iff (j = k) (by simp [h, hs])
    | isFalse h, _ => isFalse fun same => h (Prod.mk.inj (List.cons.inj same).1).2
    | _, isFalse hs => isFalse fun same => hs (List.cons.inj same).2
end

instance : DecidableEq Json := decEq

/-- `value["key"]`: null where there is no such member. -/
def field (v : Json) (key : String) : Json :=
  match v with
  | .obj members => (members.lookup key).getD .null
  | _ => .null

/-- `Value::as_object`. -/
def asObject : Json → Option (List (String × Json))
  | .obj members => some members
  | _ => none

/-- `Value::as_array`. -/
def asArray : Json → Option (List Json)
  | .arr items => some items
  | _ => none

/-- `Value::as_str`. -/
def asStr : Json → Option String
  | .str s => some s
  | _ => none

/-- `Value::as_i64`: an integer in the signed 64-bit range. -/
def asI64 : Json → Option Int
  | .int n => if -9223372036854775808 ≤ n ∧ n ≤ 9223372036854775807 then some n else none
  | _ => none

/-- `Value::is_boolean`. -/
def isBool : Json → Bool
  | .bool _ => true
  | _ => false

/-- `Map::contains_key`. -/
def containsKey (members : List (String × Json)) (key : String) : Bool :=
  (members.lookup key).isSome

/-- The map has exactly these keys. -/
def only (members : List (String × Json)) (keys : List String) : Bool :=
  members.length == keys.length && keys.all (containsKey members)

/-- The order of two texts by their bytes, which is that of their code points. -/
def codesBefore : List Char → List Char → Bool
  | _, [] => false
  | [], _ :: _ => true
  | a :: as, b :: bs => a.toNat < b.toNat || (a.toNat == b.toNat && codesBefore as bs)

def textBefore (a b : String) : Bool := codesBefore a.toList b.toList

/-- `Map::insert`, keeping the keys ascending. -/
def insertMember (key : String) (v : Json) : List (String × Json) → List (String × Json)
  | [] => [(key, v)]
  | (k, w) :: rest =>
    if key = k then (k, v) :: rest
    else if textBefore key k then (key, v) :: (k, w) :: rest
    else (k, w) :: insertMember key v rest

/-- `value["key"] = item` on an object. -/
def set (v : Json) (key : String) (item : Json) : Json :=
  match v with
  | .obj members => .obj (insertMember key item members)
  | other => other

/-- `json!({…})`. -/
def object (members : List (String × Json)) : Json :=
  members.foldl (fun v m => v.set m.1 m.2) (.obj [])

end Json

/-- The UTF-16 units of a character. -/
def utf16 (c : Char) : List Nat :=
  if c.toNat < 0x10000 then [c.toNat]
  else [0xD800 + (c.toNat - 0x10000) / 0x400, 0xDC00 + (c.toNat - 0x10000) % 0x400]

def hexDigit (n : Nat) : Char := if n < 10 then Char.ofNat (48 + n) else Char.ofNat (87 + n)

/-- `{unit:04x}`. -/
def hex4 (unit : Nat) : List Char :=
  [hexDigit (unit / 4096 % 16), hexDigit (unit / 256 % 16), hexDigit (unit / 16 % 16),
    hexDigit (unit % 16)]

/-- One unit of a JSON string. -/
def escapeUnit (unit : Nat) : List Char :=
  if unit = 0x22 then ['\\', '"']
  else if unit = 0x5c then ['\\', '\\']
  else if unit = 0x0a then ['\\', 'n']
  else if unit = 0x0d then ['\\', 'r']
  else if unit = 0x09 then ['\\', 't']
  else if unit = 0x08 then ['\\', 'b']
  else if unit = 0x0c then ['\\', 'f']
  else if 0x20 ≤ unit ∧ unit ≤ 0x7e then [Char.ofNat unit]
  else '\\' :: 'u' :: hex4 unit

/-- The string's text after its opening quote. -/
def quoted (s : String) : List Char :=
  (s.toList.flatMap utf16).flatMap escapeUnit ++ ['"']

/-- An integer in decimal. -/
def decimal : Int → List Char
  | .ofNat n => Nat.toDigits 10 n
  | .negSucc n => '-' :: Nat.toDigits 10 (n + 1)

/-- The separators of a JSON text; the item separator starts with a comma. -/
structure Separators where
  item : List Char
  key : List Char

mutual
/-- The text of a value; the members already stand in key order. -/
def Json.write (sep : Separators) : Json → List Char
  | .null => ['n', 'u', 'l', 'l']
  | .bool true => ['t', 'r', 'u', 'e']
  | .bool false => ['f', 'a', 'l', 's', 'e']
  | .int n => decimal n
  | .float x => x.text.toList
  | .str s => '"' :: quoted s
  | .arr [] => ['[', ']']
  | .arr (v :: vs) => '[' :: (v.write sep ++ Json.writeItems sep vs)
  | .obj [] => ['{', '}']
  | .obj ((k, v) :: ms) =>
    '{' :: '"' :: (quoted k ++ (sep.key ++ (v.write sep ++ Json.writeMembers sep ms)))

/-- The later elements of an array and its closing bracket. -/
def Json.writeItems (sep : Separators) : List Json → List Char
  | [] => [']']
  | v :: vs => ',' :: (sep.item ++ (v.write sep ++ Json.writeItems sep vs))

/-- The later members of an object and its closing brace. -/
def Json.writeMembers (sep : Separators) : List (String × Json) → List Char
  | [] => ['}']
  | (k, v) :: ms =>
    ',' :: (sep.item ++ '"' :: (quoted k ++ (sep.key ++ (v.write sep ++ Json.writeMembers sep ms))))
end

/-- `json.dumps(value, sort_keys=True, separators=(',', ':'))`. -/
def canonical (v : Json) : String := String.ofList (v.write ⟨[], [':']⟩)

/-- `json.dumps(value, sort_keys=True)`. -/
def sortedDumps (v : Json) : String := String.ofList (v.write ⟨[' '], [':', ' ']⟩)

end NodePlane
