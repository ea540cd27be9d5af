import NodePlane.Library.Lines
import NodePlane.Library.PythonText
import NodePlane.Library.UsedOnce
import Mathlib.Algebra.Group.Int.Defs
import Mathlib.Data.List.Induction
import Mathlib.Data.List.Nodup

/-! Signed requests from clients with a key of their own. -/
namespace NodePlane
namespace ClientKeys
open Library

/-- Times are in microseconds. -/
def second : ℤ := 1000000

def minute : ℤ := 60 * second

def skew : ℤ := 60 * second

/-- Nonces are kept a little longer than the window they can be used in. -/
def keepNonces : ℤ := 3 * minute

def scheme : String := "NP-Signature "

structure Fields where
  key : String
  ts : String
  nonce : String
  sig : String
  deriving DecidableEq, Repr

def isName (c : Char) : Bool := 'a' ≤ c && c ≤ 'z'

def isDigit (c : Char) : Bool := '0' ≤ c && c ≤ '9'

def isValue (c : Char) : Bool :=
  ('A' ≤ c && c ≤ 'Z') || isName c || isDigit c || c = '_' || c = '-'

def isHex (c : Char) : Bool := ('a' ≤ c && c ≤ 'f') || isDigit c

/-- `_FIELD`, for a whole part of the header. -/
def field (part : List Char) : Option (List Char × List Char) :=
  let part := part.dropWhile PythonText.isSpace
  let name := part.takeWhile isName
  match part.dropWhile isName with
  | '=' :: rest =>
    let value := rest.takeWhile isValue
    if name ≠ [] ∧ value ≠ [] ∧ (rest.dropWhile isValue).all PythonText.isSpace then
      some (name, value)
    else none
  | _ => none

/-- The fields of the parts; none if a part is none or one is repeated. -/
def fieldsOf : List (List Char) → List (List Char × List Char) →
    Option (List (List Char × List Char))
  | [], fields => some fields
  | part :: parts, fields =>
    match field part with
    | none => none
    | some (name, value) =>
      if (fields.lookup name).isSome then none else fieldsOf parts (fields ++ [(name, value)])

/-- The header's fields, or none when it is not a well-formed signature. -/
def parse (authorization : String) : Option Fields :=
  if scheme.toList.isPrefixOf authorization.toList = false then none
  else
    match fieldsOf ((authorization.toList.drop scheme.length).splitOn ',') [] with
    | none => none
    | some fields =>
      match fields.lookup "key".toList, fields.lookup "ts".toList, fields.lookup "nonce".toList,
        fields.lookup "sig".toList with
      | some key, some ts, some nonce, some sig =>
        if fields.length = 4 ∧ (key.length = 32 ∧ key.all isHex) ∧
            (ts.all isDigit ∧ ts.length ≤ 12) ∧ 16 ≤ nonce.length ∧ nonce.length ≤ 64 then
          some ⟨String.ofList key, String.ofList ts, String.ofList nonce, String.ofList sig⟩
        else none
      | _, _, _, _ => none

/-- `int` of the digits. -/
def Fields.time (fields : Fields) : ℤ := Nat.ofDigitChars 10 fields.ts.toList 0

/-- What a signature covers. -/
structure Request where
  method : String
  target : String
  body : List UInt8
  timestamp : String
  nonce : String
  delegated : Option String
  deriving DecidableEq, Repr

/-- `str.upper`, SHA-256 in hexadecimal, a public key's text when it is one, and whether a signature
is a key's for a text. -/
structure Crypto where
  upper : String → String
  digest : List UInt8 → String
  publicKey : String → Option String
  verify : String → String → String → Bool
  upper_line : ∀ {s : String}, '\n' ∉ s.toList → '\n' ∉ (upper s).toList
  digest_line : ∀ body, '\n' ∉ (digest body).toList

variable (crypto : Crypto)

def parts (r : Request) : List String :=
  ["np-sig-v1", crypto.upper r.method, r.target, crypto.digest r.body, r.delegated.getD "",
    r.timestamp, r.nonce]

/-- The text a client signs. -/
def message (r : Request) : String :=
  String.ofList (['\n'].intercalate ((parts crypto r).map String.toList))

/-- Whose key it is. -/
inductive Owner
  | workstation (account : String)
  | bot
  deriving DecidableEq, Repr

def Owner.account : Owner → Option String
  | .workstation account => some account
  | .bot => none

/-- A row of `backend_client_keys`. -/
structure Row where
  id : String
  owner : Owner
  publicKey : String
  name : String
  createdAt : ℤ
  lastUsedAt : Option ℤ
  revokedAt : Option ℤ
  deriving DecidableEq, Repr

/-- An access that is denied, a `ValueError`, or a row the table does not take. -/
inductive Error
  | denied (code : String) (status : ℕ)
  | value (text : String)
  | integrity
  deriving DecidableEq, Repr

def invalidCredentials : Error := .denied "invalid_credentials" 401

/-- Whose key is registered. -/
def owner (kind : String) (account : Option String) : Except Error Owner :=
  match kind, account with
  | "workstation", some account =>
    if account = "" then .error (.value "invalid client key") else .ok (.workstation account)
  | "bot", none => .ok .bot
  | "bot", some "" => .error .integrity
  | _, _ => .error (.value "invalid client key")

section
variable (keys : List Row)

/-- Stores a client's public key under a new id. -/
def register (kind key name : String) (account : Option String) (id : String) (now : ℤ) :
    Except Error (List Row) :=
  match owner kind account with
  | .error e => .error e
  | .ok owner =>
    match crypto.publicKey key with
    | none => .error (.denied "client_key_invalid" 422)
    | some key =>
      if key ∈ keys.map Row.publicKey then .error (.denied "client_key_exists" 409)
      else if id ∈ keys.map Row.id then .error .integrity
      else .ok (keys ++ [⟨id, owner, key, String.ofList (name.toList.take 64), now, none, none⟩])

/-- Revokes the keys that are chosen and stand. -/
def revokeWhere (chosen : Row → Bool) (now : ℤ) : List Row :=
  keys.map fun row =>
    if row.revokedAt = none ∧ chosen row = true then { row with revokedAt := some now } else row

def revoke (id : String) (account : Option String) (now : ℤ) : Except Error (List Row) :=
  let chosen (row : Row) : Bool := row.id = id && (account = none || row.owner.account = account)
  if keys.any fun row => row.revokedAt = none && chosen row then .ok (revokeWhere keys chosen now)
  else .error (.denied "resource_not_found" 404)

def revokeAll (account : String) (now : ℤ) : List Row :=
  revokeWhere keys (fun row => row.owner.account = some account) now

def takeBack (id : String) : List Row :=
  keys.map fun row => if row.id = id then { row with revokedAt := none } else row

/-- The node's key becomes the bot's only one: it is taken back when it is there. -/
def pin (key name id : String) (now : ℤ) : Except Error (List Row) :=
  match keys.find? fun row => row.owner = .bot && row.publicKey = key with
  | some found =>
    .ok (revokeWhere (takeBack keys found.id)
      (fun row => row.owner = .bot && row.id ≠ found.id) now)
  | none =>
    match register crypto keys "bot" key ("Telegram bot on " ++ name) none id now with
    | .error e => .error e
    | .ok keys => .ok (revokeWhere keys (fun row => row.owner = .bot && row.id ≠ id) now)

/-- The bot runs on the controller again. -/
def unpin (now : ℤ) : List Row := revokeWhere keys (fun row => row.owner = .bot) now

end

/-- What is done to the keys. -/
inductive Change
  | register (kind key name : String) (account : Option String) (id : String) (now : ℤ)
  | revoke (id : String) (account : Option String) (now : ℤ)
  | revokeAll (account : String) (now : ℤ)
  | pin (key name id : String) (now : ℤ)
  | unpin (now : ℤ)
  deriving DecidableEq, Repr

def Change.apply (keys : List Row) : Change → Except Error (List Row)
  | .register kind key name account id now =>
    ClientKeys.register crypto keys kind key name account id now
  | .revoke id account now => ClientKeys.revoke keys id account now
  | .revokeAll account now => .ok (ClientKeys.revokeAll keys account now)
  | .pin key name id now => ClientKeys.pin crypto keys key name id now
  | .unpin now => .ok (ClientKeys.unpin keys now)

/-- A request as it comes, and the role and status of the key's account. -/
structure Call where
  authorization : String
  method : String
  target : String
  body : List UInt8
  delegated : Option String
  now : ℤ
  account : Option (String × String)
  deriving DecidableEq, Repr

def Call.request (call : Call) (fields : Fields) : Request :=
  ⟨call.method, call.target, call.body, fields.ts, fields.nonce, call.delegated⟩

inductive Principal
  | adapter (key : String)
  | account (key : String) (account : String)
  deriving DecidableEq, Repr

/-- An accepted call and the public key it was signed with. -/
structure Accepted where
  call : Call
  fields : Fields
  publicKey : String
  deriving DecidableEq, Repr

/-- The keys, the nonces with the moments they were seen, and what was accepted, newest first. -/
structure State where
  keys : List Row
  nonces : List ((String × String) × ℤ)
  accepted : List Accepted
  deriving DecidableEq, Repr

/-- A nonce is dropped when it was seen longer ago than it is kept. -/
def seen : UsedOnce.Retention ℤ where
  gone seen now := seen < now - keepNonces
  lasting past passed := by
    rw [decide_eq_true_eq] at past ⊢
    omega

/-- Last use is written once a minute at most. -/
def touch (keys : List Row) (id : String) (now : ℤ) : List Row :=
  keys.map fun row =>
    if row.id = id ∧ (row.lastUsedAt.all fun last => last ≤ now - minute) = true then
      { row with lastUsedAt := some now }
    else row

/-- Workstation is for staff: a key stops working with the account's last staff role. -/
def principal (row : Row) (account : Option (String × String)) : Option Principal :=
  match row.owner with
  | .bot => some (.adapter row.id)
  | .workstation own =>
    if account = some ("admin", "approved") then some (.account row.id own) else none

/-- The fields of a signed request and the key's row, when the signature is right. -/
def check (s : State) (call : Call) : Except Error (Fields × Row) :=
  match parse call.authorization with
  | none => .error invalidCredentials
  | some fields =>
    if skew < (call.now - fields.time * second).natAbs then
      .error (.denied "request_time_invalid" 401)
    else
      match s.keys.find? fun row => row.id = fields.key with
      | none => .error invalidCredentials
      | some row =>
        if row.revokedAt.isSome then .error invalidCredentials
        else if crypto.verify row.publicKey fields.sig (message crypto (call.request fields)) then
          .ok (fields, row)
        else .error invalidCredentials

/-- The principal of a signed request. -/
def authenticate (s : State) (call : Call) : Except Error Principal × State :=
  match check crypto s call with
  | .error e => (.error e, s)
  | .ok (fields, row) =>
    let nonces := seen.purge s.nonces call.now
    if (row.id, fields.nonce) ∈ nonces.map Prod.fst then
      (.error (.denied "request_replayed" 401), s)
    else
      let keys := touch s.keys row.id call.now
      let nonces := ((row.id, fields.nonce), call.now) :: nonces
      match principal row call.account with
      | none => (.error invalidCredentials, ⟨keys, nonces, s.accepted⟩)
      | some p => (.ok p, ⟨keys, nonces, ⟨call, fields, row.publicKey⟩ :: s.accepted⟩)

inductive Op
  | change (change : Change)
  | authenticate (call : Call)
  deriving DecidableEq, Repr

def step (s : State) : Op → State
  | .change change =>
    match change.apply crypto s.keys with
    | .error _ => s
    | .ok keys => { s with keys }
  | .authenticate call => (authenticate crypto s call).2

def run (ops : List Op) : State := ops.foldl (step crypto) ⟨[], [], []⟩

def Op.call : Op → Option Call
  | .change _ => none
  | .authenticate call => some call

/-! The header's grammar. -/

/-- Fields as a client writes them. -/
structure Fields.WellFormed (fields : Fields) : Prop where
  key : fields.key.toList.length = 32 ∧ fields.key.toList.all isHex = true
  ts : fields.ts ≠ "" ∧ fields.ts.toList.all isDigit = true ∧ fields.ts.toList.length ≤ 12
  nonce : fields.nonce.toList.all isValue = true ∧ 16 ≤ fields.nonce.toList.length ∧
    fields.nonce.toList.length ≤ 64
  sig : fields.sig ≠ "" ∧ fields.sig.toList.all isValue = true

def Fields.header (fields : Fields) : String :=
  "NP-Signature key=" ++ fields.key ++ ", ts=" ++ fields.ts ++ ", nonce=" ++ fields.nonce ++
    ", sig=" ++ fields.sig

theorem isValue_of_isDigit {c : Char} (digit : isDigit c = true) : isValue c = true := by
  simp [isValue, digit]

theorem isValue_of_isHex {c : Char} (hex : isHex c = true) : isValue c = true := by
  rw [isHex, Bool.or_eq_true] at hex
  rcases hex with letter | digit
  · rw [Bool.and_eq_true, decide_eq_true_eq, decide_eq_true_eq] at letter
    have name : isName c = true := by
      rw [isName, Bool.and_eq_true, decide_eq_true_eq, decide_eq_true_eq]
      exact ⟨letter.1, Char.le_trans letter.2 (by decide)⟩
    simp [isValue, name]
  · exact isValue_of_isDigit digit

/-- A part with a name and a value is read, white space around the front of it or not. -/
theorem field_of (spaces name value : List Char) (white : ∀ c ∈ spaces, PythonText.isSpace c = true)
    (head : name.head?.any (fun c => !PythonText.isSpace c) = true)
    (names : ∀ c ∈ name, isName c = true) (some' : value ≠ [])
    (values : ∀ c ∈ value, isValue c = true) :
    field (spaces ++ (name ++ '=' :: value)) = some (name, value) := by
  cases name with
  | nil => cases head
  | cons c name =>
    have solid : PythonText.isSpace c = false := by simpa using head
    have trimmed : (spaces ++ ((c :: name) ++ '=' :: value)).dropWhile PythonText.isSpace =
        (c :: name) ++ '=' :: value := by
      rw [List.dropWhile_append_of_pos white]
      exact List.dropWhile_cons_of_neg (by simp [solid])
    have before : ((c :: name) ++ '=' :: value).takeWhile isName = c :: name := by
      rw [List.takeWhile_append_of_pos names, List.takeWhile_cons_of_neg (by decide),
        List.append_nil]
    have after : ((c :: name) ++ '=' :: value).dropWhile isName = '=' :: value := by
      rw [List.dropWhile_append_of_pos names, List.dropWhile_cons_of_neg (by decide)]
    have whole : value.takeWhile isValue = value := by
      have read : (value ++ []).takeWhile isValue = value ++ [].takeWhile isValue :=
        List.takeWhile_append_of_pos values
      rwa [List.append_nil, List.takeWhile_nil, List.append_nil] at read
    have none : value.dropWhile isValue = [] := by
      have read : (value ++ []).dropWhile isValue = [].dropWhile isValue :=
        List.dropWhile_append_of_pos values
      rwa [List.append_nil, List.dropWhile_nil] at read
    unfold field
    dsimp only
    rw [trimmed, before, after]
    show (if c :: name ≠ [] ∧ value.takeWhile isValue ≠ [] ∧
      (value.dropWhile isValue).all PythonText.isSpace = true then
        Option.some (c :: name, value.takeWhile isValue) else Option.none) = _
    rw [whole, none, if_pos ⟨List.cons_ne_nil c name, some', rfl⟩]

theorem not_comma {text : List Char} (values : ∀ c ∈ text, isValue c = true) : ',' ∉ text :=
  fun member => absurd (values ',' member) (by decide)

theorem header_toList (fields : Fields) : fields.header.toList = scheme.toList ++ [','].intercalate
    ["key".toList ++ '=' :: fields.key.toList, ' ' :: ("ts".toList ++ '=' :: fields.ts.toList),
      ' ' :: ("nonce".toList ++ '=' :: fields.nonce.toList),
      ' ' :: ("sig".toList ++ '=' :: fields.sig.toList)] := by
  show ("NP-Signature key=" ++ fields.key ++ ", ts=" ++ fields.ts ++ ", nonce=" ++ fields.nonce ++
    ", sig=" ++ fields.sig).toList = _
  simp [scheme, List.intercalate_cons_cons]

/-- A client's header is read as its fields. -/
theorem parse_header {fields : Fields} (well : fields.WellFormed) :
    parse fields.header = some fields := by
  obtain ⟨key, ts, nonce, sig⟩ := fields
  obtain ⟨⟨size, hex⟩, ⟨some', digits, short⟩, ⟨random, least, most⟩, any, signature⟩ := well
  dsimp only at size hex some' digits short random least most any signature
  have keys : ∀ c ∈ key.toList, isValue c = true :=
    fun c member => isValue_of_isHex (List.all_eq_true.mp hex c member)
  have times : ∀ c ∈ ts.toList, isValue c = true :=
    fun c member => isValue_of_isDigit (List.all_eq_true.mp digits c member)
  have nonces := List.all_eq_true.mp random
  have sigs := List.all_eq_true.mp signature
  have nonempty {text : String} (some : text ≠ "") : text.toList ≠ [] := by simpa using some
  have white : ∀ c ∈ [' '], PythonText.isSpace c = true :=
    List.forall_mem_singleton.mpr (by decide)
  have first : field ("key".toList ++ '=' :: key.toList) = some ("key".toList, key.toList) :=
    field_of [] "key".toList _ (List.forall_mem_nil _) (by decide) (by simp [isName])
      (List.ne_nil_of_length_pos (by omega)) keys
  have second : field (' ' :: ("ts".toList ++ '=' :: ts.toList)) = some ("ts".toList, ts.toList) :=
    field_of [' '] "ts".toList _ white (by decide) (by simp [isName]) (nonempty some') times
  have third : field (' ' :: ("nonce".toList ++ '=' :: nonce.toList)) =
      some ("nonce".toList, nonce.toList) :=
    field_of [' '] "nonce".toList _ white (by decide) (by simp [isName])
      (List.ne_nil_of_length_pos (by omega)) nonces
  have last : field (' ' :: ("sig".toList ++ '=' :: sig.toList)) =
      some ("sig".toList, sig.toList) :=
    field_of [' '] "sig".toList _ white (by decide) (by simp [isName]) (nonempty any) sigs
  have apart : ∀ part ∈ ["key".toList ++ '=' :: key.toList,
      ' ' :: ("ts".toList ++ '=' :: ts.toList),
      ' ' :: ("nonce".toList ++ '=' :: nonce.toList), ' ' :: ("sig".toList ++ '=' :: sig.toList)],
      ',' ∉ part := by
    simp [not_comma keys, not_comma times, not_comma nonces, not_comma sigs]
  unfold parse
  rw [header_toList, if_neg (by simp), ← String.length_toList, List.drop_left,
    List.splitOn_intercalate ',' apart (List.cons_ne_nil _ _)]
  simp only [fieldsOf, first, second, third, last]
  have fits : key.toList.length = 32 ∧ key.toList.all isHex = true := ⟨size, hex⟩
  simp [List.lookup_cons, fits, digits, short, least, most, String.ofList_toList]

/-! What changes of the keys leave as it is. -/

variable {crypto : Crypto} {keys : List Row} {s : State}

/-- The id of a key and the public key it stands for. -/
def Row.ident (row : Row) : String × String := (row.id, row.publicKey)

/-- No two keys share an id or a public key. -/
structure Unique (keys : List Row) : Prop where
  ids : (keys.map Row.id).Nodup
  publicKeys : (keys.map Row.publicKey).Nodup

/-- A row of the key is there and revoked. -/
def Revoked (keys : List Row) (ident : String × String) : Prop :=
  ∃ row ∈ keys, row.ident = ident ∧ row.revokedAt.isSome = true

theorem Unique.of_idents {others : List Row} (unique : Unique keys)
    (same : others.map Row.ident = keys.map Row.ident) : Unique others := by
  have ids (rows : List Row) : rows.map Row.id = (rows.map Row.ident).map Prod.fst := by
    rw [List.map_map]
    rfl
  have publicKeys (rows : List Row) :
      rows.map Row.publicKey = (rows.map Row.ident).map Prod.snd := by
    rw [List.map_map]
    rfl
  constructor
  · rw [ids, same, ← ids]
    exact unique.ids
  · rw [publicKeys, same, ← publicKeys]
    exact unique.publicKeys

theorem map_ident {change : Row → Row} (keeps : ∀ row, (change row).ident = row.ident) :
    (keys.map change).map Row.ident = keys.map Row.ident := by
  rw [List.map_map]
  exact List.map_congr_left fun row _ => keeps row

theorem revokeWhere_ident (chosen : Row → Bool) (now : ℤ) :
    (revokeWhere keys chosen now).map Row.ident = keys.map Row.ident := by
  apply map_ident
  intro row
  split <;> rfl

theorem takeBack_ident (id : String) : (takeBack keys id).map Row.ident = keys.map Row.ident := by
  apply map_ident
  intro row
  split <;> rfl

theorem touch_ident (id : String) (now : ℤ) :
    (touch keys id now).map Row.ident = keys.map Row.ident := by
  apply map_ident
  intro row
  split <;> rfl

/-- A new key is under an id and a public key of its own. -/
theorem register_ok {kind key name id : String} {account : Option String} {now : ℤ}
    {after : List Row} (ok : register crypto keys kind key name account id now = .ok after) :
    ∃ row, after = keys ++ [row] ∧ row.id ∉ keys.map Row.id ∧
      row.publicKey ∉ keys.map Row.publicKey := by
  unfold register at ok
  split at ok
  · cases ok
  · split at ok
    · cases ok
    · split at ok
      · cases ok
      next other =>
        split at ok
        · cases ok
        next fresh =>
          cases ok
          exact ⟨_, rfl, fresh, other⟩

/-- The bot is given a key. -/
def Change.pins (publicKey : String) : Change → Bool
  | .pin key _ _ _ => key = publicKey
  | _ => false

/-- A change adds a key, takes one back or does neither, and then it may revoke some. -/
theorem apply_cases {change : Change} {after : List Row}
    (ok : change.apply crypto keys = .ok after) :
    ∃ base, (base = keys ∨
        (∃ row, base = keys ++ [row] ∧ row.id ∉ keys.map Row.id ∧
          row.publicKey ∉ keys.map Row.publicKey) ∨
        ∃ row ∈ keys, change.pins row.publicKey = true ∧ base = takeBack keys row.id) ∧
      (after = base ∨ ∃ chosen now, after = revokeWhere base chosen now) := by
  cases change with
  | register kind key name account id now =>
    obtain ⟨row, rfl, fresh⟩ := register_ok ok
    exact ⟨_, .inr (.inl ⟨row, rfl, fresh⟩), .inl rfl⟩
  | revoke id account now =>
    rw [Change.apply, revoke, ite_eq_iff] at ok
    rcases ok with ⟨-, ok⟩ | ⟨-, ok⟩
    · cases ok
      exact ⟨keys, .inl rfl, .inr ⟨_, _, rfl⟩⟩
    · cases ok
  | revokeAll account now =>
    cases ok
    exact ⟨keys, .inl rfl, .inr ⟨_, _, rfl⟩⟩
  | pin key name id now =>
    rw [Change.apply, pin] at ok
    split at ok
    next found known =>
      cases ok
      have pinned := List.find?_some known
      rw [Bool.and_eq_true, decide_eq_true_eq, decide_eq_true_eq] at pinned
      exact ⟨_, .inr (.inr ⟨found, List.mem_of_find?_eq_some known,
        decide_eq_true pinned.2.symm, rfl⟩), .inr ⟨_, _, rfl⟩⟩
    · split at ok
      · cases ok
      next registered =>
        cases ok
        obtain ⟨row, rfl, fresh⟩ := register_ok registered
        exact ⟨_, .inr (.inl ⟨row, rfl, fresh⟩), .inr ⟨_, _, rfl⟩⟩
  | unpin now =>
    cases ok
    exact ⟨keys, .inl rfl, .inr ⟨_, _, rfl⟩⟩

theorem Unique.append {row : Row} (unique : Unique keys) (fresh : row.id ∉ keys.map Row.id)
    (other : row.publicKey ∉ keys.map Row.publicKey) : Unique (keys ++ [row]) := by
  constructor
  · rw [List.map_append]
    refine List.nodup_append.mpr ⟨unique.ids, List.nodup_singleton _, ?_⟩
    rintro id listed _ here rfl
    exact fresh (List.mem_singleton.mp here ▸ listed)
  · rw [List.map_append]
    refine List.nodup_append.mpr ⟨unique.publicKeys, List.nodup_singleton _, ?_⟩
    rintro key listed _ here rfl
    exact other (List.mem_singleton.mp here ▸ listed)

/-- A change leaves the keys apart and drops none. -/
theorem apply_unique {change : Change} {after : List Row} (unique : Unique keys)
    (ok : change.apply crypto keys = .ok after) :
    Unique after ∧ ∀ ident ∈ keys.map Row.ident, ident ∈ after.map Row.ident := by
  obtain ⟨base, kind, last⟩ := apply_cases ok
  have kept : Unique base ∧ ∀ ident ∈ keys.map Row.ident, ident ∈ base.map Row.ident := by
    rcases kind with rfl | ⟨row, rfl, fresh, other⟩ | ⟨row, -, -, rfl⟩
    · exact ⟨unique, fun ident listed => listed⟩
    · refine ⟨unique.append fresh other, ?_⟩
      intro ident listed
      rw [List.map_append]
      exact List.mem_append_left _ listed
    · refine ⟨unique.of_idents (takeBack_ident _), ?_⟩
      rw [takeBack_ident]
      exact fun ident listed => listed
  rcases last with rfl | ⟨chosen, now, rfl⟩
  · exact kept
  · refine ⟨kept.1.of_idents (revokeWhere_ident _ _), ?_⟩
    rw [revokeWhere_ident]
    exact kept.2

theorem Revoked.map {ident : String × String} (revoked : Revoked keys ident) {change : Row → Row}
    (stays : ∀ row ∈ keys, row.ident = ident → row.revokedAt.isSome = true →
      (change row).ident = ident ∧ (change row).revokedAt.isSome = true) :
    Revoked (keys.map change) ident := by
  obtain ⟨row, member, same, since⟩ := revoked
  exact ⟨change row, List.mem_map_of_mem member, stays row member same since⟩

theorem Revoked.revokeWhere {ident : String × String} (revoked : Revoked keys ident)
    (chosen : Row → Bool) (now : ℤ) : Revoked (revokeWhere keys chosen now) ident := by
  apply revoked.map
  intro row _ same since
  split
  · exact ⟨same, rfl⟩
  · exact ⟨same, since⟩

theorem Revoked.touch {ident : String × String} (revoked : Revoked keys ident) (id : String)
    (now : ℤ) : Revoked (touch keys id now) ident := by
  apply revoked.map
  intro row _ same since
  split <;> exact ⟨same, since⟩

/-- A revoked key stays so unless it is pinned again. -/
theorem Revoked.apply {change : Change} {after : List Row} {ident : String × String}
    (unique : Unique keys) (revoked : Revoked keys ident) (other : change.pins ident.2 = false)
    (ok : change.apply crypto keys = .ok after) : Revoked after ident := by
  obtain ⟨base, kind, last⟩ := apply_cases ok
  have kept : Revoked base ident := by
    rcases kind with rfl | ⟨row, rfl, -⟩ | ⟨pinned, there, pins, rfl⟩
    · exact revoked
    · obtain ⟨row, member, since⟩ := revoked
      exact ⟨row, List.mem_append_left _ member, since⟩
    · apply revoked.map
      intro row here same since
      split
      next its =>
        -- the row with the pinned id would have the pinned public key
        have publicKey : row.publicKey = ident.2 := congrArg Prod.snd same
        rw [← List.inj_on_of_nodup_map unique.ids here there its, publicKey, other] at pins
        cases pins
      · exact ⟨same, since⟩
  rcases last with rfl | ⟨chosen, now, rfl⟩
  · exact kept
  · exact kept.revokeWhere chosen now

/-! What a signature says. -/

/-- A request that is signed is free of line breaks. -/
structure Request.Plain (r : Request) : Prop where
  method : '\n' ∉ r.method.toList
  target : '\n' ∉ r.target.toList
  timestamp : '\n' ∉ r.timestamp.toList
  nonce : '\n' ∉ r.nonce.toList
  delegated : '\n' ∉ (r.delegated.getD "").toList

/-- The same request: the method in upper case, and acting for nobody is acting for the empty
name. -/
structure Agrees (crypto : Crypto) (r x : Request) : Prop where
  method : crypto.upper r.method = crypto.upper x.method
  target : r.target = x.target
  body : r.body = x.body
  timestamp : r.timestamp = x.timestamp
  nonce : r.nonce = x.nonce
  delegated : r.delegated.getD "" = x.delegated.getD ""

/-- A text that was made for a plain request says it. -/
theorem message_agrees {r x : Request} (plain : r.Plain)
    (free : crypto.digest r.body = crypto.digest x.body → r.body = x.body)
    (same : message crypto r = message crypto x) : Agrees crypto r x := by
  have lines : (parts crypto r).map String.toList = (parts crypto x).map String.toList := by
    refine Lines.join_unique ?_ rfl (String.ofList_injective same)
    intro part member
    obtain ⟨text, listed, rfl⟩ := List.mem_map.mp member
    simp only [parts, List.mem_cons, List.not_mem_nil, or_false] at listed
    rcases listed with rfl | rfl | rfl | rfl | rfl | rfl | rfl
    · decide
    · exact crypto.upper_line plain.method
    · exact plain.target
    · exact crypto.digest_line r.body
    · exact plain.delegated
    · exact plain.timestamp
    · exact plain.nonce
  have texts : parts crypto r = parts crypto x :=
    List.map_injective_iff.mpr (fun _ _ same => String.toList_inj.mp same) lines
  simp only [parts, List.cons.injEq, and_true, true_and] at texts
  obtain ⟨method, target, body, delegated, timestamp, nonce⟩ := texts
  exact ⟨method, target, free body, timestamp, nonce, delegated⟩

/-! Runs. -/

/-- A row of the key is there. -/
def Known (keys : List Row) (x : Accepted) : Prop :=
  (x.fields.key, x.publicKey) ∈ keys.map Row.ident

theorem Known.touch {x : Accepted} (known : Known keys x) (id : String) (now : ℤ) :
    Known (touch keys id now) x := by
  rwa [Known, touch_ident]

/-- What an accepted call proves. -/
structure Proven (crypto : Crypto) (x : Accepted) : Prop where
  fields : parse x.call.authorization = some x.fields
  recent : (x.call.now - x.fields.time * second).natAbs ≤ skew
  signature :
    crypto.verify x.publicKey x.fields.sig (message crypto (x.call.request x.fields)) = true

theorem check_ok {call : Call} {fields : Fields} {row : Row}
    (ok : check crypto s call = .ok (fields, row)) :
    Proven crypto ⟨call, fields, row.publicKey⟩ ∧ row ∈ s.keys ∧ row.id = fields.key ∧
      row.revokedAt = none := by
  unfold check at ok
  split at ok
  · cases ok
  next read =>
    split at ok
    · cases ok
    next recent =>
      split at ok
      · cases ok
      next found =>
        split at ok
        · cases ok
        next standing =>
          split at ok
          next signature =>
            cases ok
            refine ⟨⟨read, Int.not_lt.mp recent, signature⟩, List.mem_of_find?_eq_some found, ?_,
              ?_⟩
            · simpa using List.find?_some found
            · simpa using standing
          · cases ok

theorem check_of {call : Call} {fields : Fields} {row : Row}
    (read : parse call.authorization = some fields)
    (recent : (call.now - fields.time * second).natAbs ≤ skew)
    (found : (s.keys.find? fun row => row.id = fields.key) = some row)
    (standing : row.revokedAt = none)
    (right : crypto.verify row.publicKey fields.sig (message crypto (call.request fields)) = true) :
    check crypto s call = .ok (fields, row) := by
  unfold check
  rw [read]
  dsimp only
  rw [if_neg (Int.not_lt.mpr recent), found]
  dsimp only
  rw [standing, if_neg (show ¬(none : Option ℤ).isSome = true from Bool.false_ne_true),
    if_pos right]

theorem authenticate_of {call : Call} {fields : Fields} {row : Row} {p : Principal}
    (checked : check crypto s call = .ok (fields, row))
    (missing : (row.id, fields.nonce) ∉ (seen.purge s.nonces call.now).map Prod.fst)
    (known : principal row call.account = some p) :
    authenticate crypto s call = (.ok p, ⟨touch s.keys row.id call.now,
      ((row.id, fields.nonce), call.now) :: seen.purge s.nonces call.now,
      ⟨call, fields, row.publicKey⟩ :: s.accepted⟩) := by
  unfold authenticate
  rw [checked]
  dsimp only
  rw [if_neg missing, known]

/-- A call changes nothing, or uses its nonce and is accepted or not. -/
theorem authenticate_cases (crypto : Crypto) (s : State) (call : Call) :
    (authenticate crypto s call).2 = s ∨ ∃ fields row accepted,
      check crypto s call = .ok (fields, row) ∧
      (row.id, fields.nonce) ∉ (seen.purge s.nonces call.now).map Prod.fst ∧
      (authenticate crypto s call).2 = ⟨touch s.keys row.id call.now,
        ((row.id, fields.nonce), call.now) :: seen.purge s.nonces call.now, accepted⟩ ∧
      (accepted = s.accepted ∨ accepted = ⟨call, fields, row.publicKey⟩ :: s.accepted) := by
  unfold authenticate
  split
  · exact .inl rfl
  next fields row checked =>
    dsimp only
    split
    · exact .inl rfl
    next missing =>
      right
      split
      · exact ⟨fields, row, _, checked, missing, rfl, .inl rfl⟩
      · exact ⟨fields, row, _, checked, missing, rfl, .inr rfl⟩

/-- How an acceptance is remembered. -/
def Accepted.use (x : Accepted) : UsedOnce.Use (String × String) ℤ :=
  ⟨(x.fields.key, x.fields.nonce), x.call.now, x.call.now⟩

/-- What holds after the calls. -/
structure Sound (crypto : Crypto) (calls : List Call) (s : State) : Prop where
  unique : Unique s.keys
  apart : seen.Apart (s.accepted.map Accepted.use)
  remembers : ∀ now, (∀ call ∈ calls, call.now ≤ now) →
    seen.Remembers (s.accepted.map Accepted.use) s.nonces now
  accepted : ∀ x ∈ s.accepted, x.call ∈ calls ∧ Proven crypto x ∧ Known s.keys x

theorem Sound.start (crypto : Crypto) : Sound crypto [] ⟨[], [], []⟩ := by
  refine ⟨⟨List.nodup_nil, List.nodup_nil⟩, List.Pairwise.nil, ?_, ?_⟩
  · intro now _ use member
    cases member
  · intro x member
    cases member

theorem Sound.change {calls : List Call} (sound : Sound crypto calls s) (change : Change) :
    Sound crypto calls (step crypto s (.change change)) := by
  rw [step]
  split
  · exact sound
  next ok =>
    obtain ⟨unique, kept⟩ := apply_unique sound.unique ok
    refine ⟨unique, sound.apart, sound.remembers, ?_⟩
    intro x member
    obtain ⟨called, proven, known⟩ := sound.accepted x member
    exact ⟨called, proven, kept _ known⟩

theorem Sound.call {calls : List Call} (sound : Sound crypto calls s) {call : Call}
    (ordered : ∀ earlier ∈ calls, earlier.now ≤ call.now) :
    Sound crypto (calls ++ [call]) (step crypto s (.authenticate call)) := by
  have passed {now : ℤ} (later : ∀ earlier ∈ calls ++ [call], earlier.now ≤ now) :
      call.now ≤ now := later call (by simp)
  have before : ∀ x ∈ s.accepted, x.call ∈ calls ++ [call] ∧ Proven crypto x ∧ Known s.keys x := by
    intro x member
    obtain ⟨called, proven⟩ := sound.accepted x member
    exact ⟨List.mem_append_left _ called, proven⟩
  have present := (sound.remembers call.now ordered).purge
  rw [step]
  rcases authenticate_cases crypto s call with
    idle | ⟨fields, row, accepted, checked, missing, after, new⟩
  · rw [idle]
    refine ⟨sound.unique, sound.apart, ?_, before⟩
    intro now later
    exact sound.remembers now fun earlier member => later earlier (List.mem_append_left _ member)
  · obtain ⟨proven, here, its, -⟩ := check_ok checked
    rw [its] at missing after
    rw [after]
    have unique := sound.unique.of_idents (touch_ident fields.key call.now)
    rcases new with rfl | rfl
    · refine ⟨unique, sound.apart, ?_, ?_⟩
      · intro now later
        exact (present.keep _).mono (passed later)
      · intro x member
        obtain ⟨called, proven, known⟩ := before x member
        exact ⟨called, proven, known.touch _ _⟩
    · refine ⟨unique, ?_, ?_, ?_⟩
      · exact sound.apart.enter present missing rfl
      · intro now later
        exact (present.enter (Accepted.use ⟨call, fields, row.publicKey⟩)).mono (passed later)
      · intro x member
        rcases List.mem_cons.mp member with rfl | member
        · refine ⟨by simp, proven, Known.touch ?_ _ _⟩
          rw [Known, ← its]
          exact List.mem_map_of_mem here
        · obtain ⟨called, proven, known⟩ := before x member
          exact ⟨called, proven, known.touch _ _⟩

theorem run_append (crypto : Crypto) (before after : List Op) :
    run crypto (before ++ after) = after.foldl (step crypto) (run crypto before) :=
  List.foldl_append

theorem run_sound (crypto : Crypto) (ops : List Op)
    (ordered : (ops.filterMap Op.call).Pairwise fun a b => a.now ≤ b.now) :
    Sound crypto (ops.filterMap Op.call) (run crypto ops) := by
  induction ops using List.reverseRecOn with
  | nil => exact Sound.start crypto
  | append_singleton ops op ih =>
    rw [run_append]
    cases op with
    | change change =>
      have calls : (ops ++ [Op.change change]).filterMap Op.call = ops.filterMap Op.call := by
        simp [Op.call]
      rw [calls] at ordered ⊢
      exact (ih ordered).change change
    | authenticate call =>
      have calls : (ops ++ [Op.authenticate call]).filterMap Op.call =
          ops.filterMap Op.call ++ [call] := by
        simp [Op.call]
      rw [calls] at ordered ⊢
      obtain ⟨before, -, last⟩ := List.pairwise_append.mp ordered
      exact (ih before).call fun earlier member => last earlier member call (by simp)

def Op.pins (publicKey : String) : Op → Bool
  | .change done => done.pins publicKey
  | .authenticate _ => false

/-- A key is revoked, and nothing was accepted with it after `base`. -/
structure Sealed (ident : String × String) (base : List Accepted) (s : State) : Prop where
  unique : Unique s.keys
  revoked : Revoked s.keys ident
  others : ∃ new, s.accepted = new ++ base ∧
    ∀ x ∈ new, x.fields.key ≠ ident.1 ∧ x.publicKey ≠ ident.2

variable {ident : String × String} {base : List Accepted}

theorem Sealed.change (sealed : Sealed ident base s) {change : Change}
    (other : change.pins ident.2 = false) : Sealed ident base (step crypto s (.change change)) := by
  rw [step]
  split
  · exact sealed
  next ok =>
    exact ⟨(apply_unique sealed.unique ok).1, sealed.revoked.apply sealed.unique other ok,
      sealed.others⟩

theorem Sealed.call (sealed : Sealed ident base s) (call : Call) :
    Sealed ident base (step crypto s (.authenticate call)) := by
  rw [step]
  rcases authenticate_cases crypto s call with
    idle | ⟨fields, row, accepted, checked, -, after, new⟩
  · rw [idle]
    exact sealed
  · rw [after]
    refine ⟨sealed.unique.of_idents (touch_ident _ _), sealed.revoked.touch _ _, ?_⟩
    obtain ⟨others, whole, apart⟩ := sealed.others
    rcases new with rfl | rfl
    · exact ⟨others, whole, apart⟩
    · obtain ⟨-, here, its, standing⟩ := check_ok checked
      obtain ⟨gone, there, rfl, since⟩ := sealed.revoked
      have different : row ≠ gone := by
        rintro rfl
        rw [standing] at since
        cases since
      refine ⟨⟨call, fields, row.publicKey⟩ :: others, by rw [whole, List.cons_append], ?_⟩
      intro x member
      rcases List.mem_cons.mp member with rfl | member
      · rw [← its]
        constructor
        · exact fun same => different (List.inj_on_of_nodup_map sealed.unique.ids here there same)
        · exact fun same =>
            different (List.inj_on_of_nodup_map sealed.unique.publicKeys here there same)
      · exact apart x member

theorem Sealed.run {after : List Op} (sealed : Sealed ident base s)
    (unpinned : ∀ op ∈ after, op.pins ident.2 = false) :
    Sealed ident base (after.foldl (step crypto) s) := by
  induction after generalizing s with
  | nil => exact sealed
  | cons op after ih =>
    apply ih _ fun later member => unpinned later (List.mem_cons_of_mem op member)
    have first := unpinned op List.mem_cons_self
    cases op with
    | change change => exact sealed.change first
    | authenticate call => exact sealed.call call

/-- A signature that is right was made with the key, for the text. -/
def Unforged (crypto : Crypto) (made : String → Request → Prop) (call : Call) : Prop :=
  ∀ fields key, parse call.authorization = some fields →
    crypto.verify key fields.sig (message crypto (call.request fields)) = true →
    ∃ r, made key r ∧ message crypto r = message crypto (call.request fields)

/-- The body of a call has the digest of no other body that was signed. -/
def CollisionFree (crypto : Crypto) (made : String → Request → Prop) (call : Call) : Prop :=
  ∀ key r, made key r → crypto.digest r.body = crypto.digest call.body → r.body = call.body

def sampleId : String := "0123456789abcdef0123456789abcdef"

def sampleKey : String := "11qYAYKxCrfVS_7TyWQHOg7hcvPapiMlrwIaaPcHURo"

/-- Signed for the bot, acting for nobody. -/
def sampleRequest (timestamp : String) : Request :=
  ⟨"get", "/api/v1/me", [], timestamp, "AAAAAAAAAAAAAAAA", some ""⟩

def sampleMade (key : String) (r : Request) : Prop :=
  key = sampleKey ∧ (r = sampleRequest "1000" ∨ r = sampleRequest "2000")

def emptyDigest : String := "e3b0c44298fc1c149afbf4c8996fb92427ae41e4649b934ca495991b7852b855"

def sampleText (timestamp : String) : String :=
  String.ofList (['\n'].intercalate (["np-sig-v1", "GET", "/api/v1/me", emptyDigest, "", timestamp,
    "AAAAAAAAAAAAAAAA"].map String.toList))

def firstSig : String :=
  "htkBVin7iQORBz5rwk9y5iJxQtC0fa62xbt8_urDEkIRxeg7SIfgqC_wXePXZo1HUXBBeGjIDTrvSrpAsgd3AQ"

def secondSig : String :=
  "pbzLwYS_g9-tVycNgo0x4Poh0V2midKzSYW1d0QjcAr2bFpAuqUXGapoCKKa5KTMri1C5MITq5Cvjil6l8tOBQ"

/-- Upper case, digest and signatures as far as the samples use them. -/
def sampleCrypto : Crypto where
  upper s := if s = "get" then "GET" else s
  digest _ := emptyDigest
  publicKey s := if s = sampleKey then some s else none
  verify key sig text := decide (key = sampleKey ∧
    (sig = firstSig ∧ text = sampleText "1000" ∨ sig = secondSig ∧ text = sampleText "2000"))
  upper_line plain := by
    split
    · decide
    · exact plain
  digest_line _ := by decide

def sampleFields (timestamp sig : String) : Fields := ⟨sampleId, timestamp, "AAAAAAAAAAAAAAAA", sig⟩

/-- The request as it comes a moment after it was signed. -/
def sampleCall (timestamp sig : String) (now : ℤ) : Call where
  authorization := (sampleFields timestamp sig).header
  method := "GET"
  target := "/api/v1/me"
  body := []
  delegated := none
  now := now
  account := none

def first : Call := sampleCall "1000" firstSig (1001 * second)

def again : Call := sampleCall "2000" secondSig (2001 * second)

def registered : Op := .change (.register "bot" sampleKey "Bot" none sampleId 0)

def sampleRow (used : Option ℤ) : Row := ⟨sampleId, .bot, sampleKey, "Bot", 0, used, none⟩

theorem sample_plain (key : String) (r : Request) (signed : sampleMade key r) : r.Plain := by
  obtain ⟨-, rfl | rfl⟩ := signed <;> constructor <;> decide

theorem sample_message (timestamp : String) :
    message sampleCrypto (sampleRequest timestamp) = sampleText timestamp := by
  have upper : sampleCrypto.upper "get" = "GET" := by
    show (if "get" = "get" then "GET" else "get") = "GET"
    exact if_pos rfl
  rw [message, parts, sampleRequest, upper]
  rfl

theorem call_message (timestamp sig : String) (now : ℤ) :
    message sampleCrypto ((sampleCall timestamp sig now).request (sampleFields timestamp sig)) =
      sampleText timestamp := by
  have upper : sampleCrypto.upper "GET" = "GET" := by
    show (if "GET" = "get" then "GET" else "GET") = "GET"
    exact if_neg (by decide)
  rw [message, parts, Call.request, sampleCall, upper]
  rfl

theorem sample_unforged (call : Call) : Unforged sampleCrypto sampleMade call := by
  intro fields key _ right
  obtain ⟨rfl, ⟨-, text⟩ | ⟨-, text⟩⟩ := of_decide_eq_true right
  · exact ⟨sampleRequest "1000", ⟨rfl, .inl rfl⟩, (sample_message "1000").trans text.symm⟩
  · exact ⟨sampleRequest "2000", ⟨rfl, .inr rfl⟩, (sample_message "2000").trans text.symm⟩

theorem sample_free {call : Call} (empty : call.body = []) :
    CollisionFree sampleCrypto sampleMade call := by
  intro key r signed _
  rw [empty]
  obtain ⟨-, rfl | rfl⟩ := signed <;> rfl

theorem sample_accepts {call : Call} {timestamp sig : String} {used : Option ℤ}
    (given : call = sampleCall timestamp sig call.now) (keys : s.keys = [sampleRow used])
    (well : (sampleFields timestamp sig).WellFormed)
    (recent : (call.now - (sampleFields timestamp sig).time * second).natAbs ≤ skew)
    (signed : sig = firstSig ∧ timestamp = "1000" ∨ sig = secondSig ∧ timestamp = "2000")
    (purged : seen.purge s.nonces call.now = [])
    (due : used.all (fun last => decide (last ≤ call.now - minute)) = true) :
    step sampleCrypto s (.authenticate call) =
      ⟨[sampleRow (some call.now)], [((sampleId, "AAAAAAAAAAAAAAAA"), call.now)],
        ⟨call, sampleFields timestamp sig, sampleKey⟩ :: s.accepted⟩ := by
  have read : parse call.authorization = some (sampleFields timestamp sig) := by
    rw [given]
    exact parse_header well
  have text : message sampleCrypto (call.request (sampleFields timestamp sig)) =
      sampleText timestamp := by
    rw [given]
    exact call_message timestamp sig call.now
  have checked : check sampleCrypto s call =
      .ok (sampleFields timestamp sig, sampleRow used) := by
    refine check_of read recent ?_ rfl ?_
    · rw [keys]
      exact List.find?_cons_of_pos (decide_eq_true rfl)
    · rw [text]
      refine decide_eq_true ⟨rfl, ?_⟩
      rcases signed with ⟨rfl, rfl⟩ | ⟨rfl, rfl⟩
      · exact .inl ⟨rfl, rfl⟩
      · exact .inr ⟨rfl, rfl⟩
  have missing : ((sampleRow used).id, (sampleFields timestamp sig).nonce) ∉
      (seen.purge s.nonces call.now).map Prod.fst := by
    rw [purged]
    exact List.not_mem_nil
  have touched : touch [sampleRow used] (sampleRow used).id call.now =
      [sampleRow (some call.now)] := by
    rw [touch, List.map_cons, List.map_nil, if_pos ⟨rfl, due⟩]
    rfl
  rw [step, authenticate_of checked missing rfl, keys, purged, touched]
  rfl

theorem sample_registered : run sampleCrypto [registered] = ⟨[sampleRow none], [], []⟩ := by
  decide

theorem first_accepted : run sampleCrypto [registered, .authenticate first] =
    ⟨[sampleRow (some first.now)], [((sampleId, "AAAAAAAAAAAAAAAA"), first.now)],
      [⟨first, sampleFields "1000" firstSig, sampleKey⟩]⟩ := by
  rw [show [registered, .authenticate first] = [registered] ++ [.authenticate first] from rfl,
    run_append, sample_registered, List.foldl_cons, List.foldl_nil]
  exact sample_accepts rfl rfl ⟨by decide, by decide, by decide, by decide⟩
    (by decide) (.inl ⟨rfl, rfl⟩) rfl rfl

theorem again_accepted :
    run sampleCrypto [registered, .authenticate first, .authenticate again] =
      ⟨[sampleRow (some again.now)], [((sampleId, "AAAAAAAAAAAAAAAA"), again.now)],
        [⟨again, sampleFields "2000" secondSig, sampleKey⟩,
          ⟨first, sampleFields "1000" firstSig, sampleKey⟩]⟩ := by
  rw [show [registered, .authenticate first, .authenticate again] =
    [registered, .authenticate first] ++ [.authenticate again] from rfl, run_append, first_accepted,
    List.foldl_cons, List.foldl_nil]
  exact sample_accepts rfl rfl ⟨by decide, by decide, by decide, by decide⟩
    (by decide) (.inr ⟨rfl, rfl⟩) (by decide) (by decide)

end ClientKeys
end NodePlane
