import NodePlane.Controller.Accounts

/-! Account logins: rules, claiming and holding. Times are seconds. -/
namespace NodePlane
namespace Logins
open Library
open Accounts (Denied)

/-- `CHANGE_EVERY`. -/
def changeEvery : ℕ := 30 * 24 * 60 * 60

/-- `HOLD`. -/
def hold : ℕ := 30 * 24 * 60 * 60

def reserved : List String :=
  ["admin", "administrator", "root", "support", "owner", "operator", "staff", "moderator",
    "system", "security", "help", "info", "api", "relay", "bot", "telegram", "node-plane",
    "nodeplane", "node_plane", "me", "null", "none", "undefined", "anonymous", "guest", "user"]

/-- How a login was claimed. -/
inductive Kind | first | change | admin
  deriving DecidableEq, Repr

/-- A row of `backend_logins`; its key is the login in lower case. -/
structure Row where
  login : String
  account : ℕ
  kind : Kind
  claimedAt : ℕ
  releasedAt : Option ℕ
  deriving DecidableEq, Repr

abbrev Rows := Table String Row

/-- `PATTERN`. -/
def pattern (login : String) : Bool :=
  match login.toList with
  | [] => false
  | first :: rest =>
    first.isAlphanum && decide (2 ≤ rest.length ∧ rest.length ≤ 31) &&
      rest.all fun c => c.isAlphanum || c == '_' || c == '.' || c == '-'

/-- `checked`: the key of a login that keeps the rules. Such a login is ASCII. -/
def checked (login : String) : Except Denied String :=
  if pattern login = false then .error ⟨"login_invalid", 422⟩
  else if login.toLower ∈ reserved then .error ⟨"login_reserved", 422⟩
  else .ok login.toLower

/-- The key and the row of the account's current login. -/
def currentRow (t : Rows) (account : ℕ) : Option (String × Row) :=
  t.rows.find? fun (_, row) => decide (row.account = account ∧ row.releasedAt = none)

/-- `current`. -/
def current (t : Rows) (account : ℕ) : Option String :=
  (currentRow t account).map fun (_, row) => row.login

/-- `MAX(claimed_at)` of the account's own changes. -/
def lastChange (t : Rows) (account : ℕ) : Option ℕ :=
  ((t.rows.filter fun (_, row) => decide (row.account = account ∧ row.kind = .change)).map
    fun (_, row) => row.claimedAt).max?

/-- `change_available_at`. -/
def changeAvailableAt (t : Rows) (account now : ℕ) : Option ℕ := do
  let at' ← lastChange t account
  guard (now < at' + changeEvery)
  return at' + changeEvery

/-- `available`. -/
def available (t : Rows) (key : String) (account now : ℕ) : Bool :=
  match t.lookup key with
  | none => true
  | some row =>
    decide (row.account = account) || row.releasedAt.any fun at' => decide (at' + hold ≤ now)

/-- `claim`. -/
def claim (t : Rows) (account : ℕ) (login : String) (kind : Kind) (now : ℕ) :
    Except Denied Rows := do
  let key ← checked login
  if available t key account now = false then
    throw ⟨"login_taken", 409⟩
  let row : Row := ⟨login, account, kind, now, none⟩
  match currentRow t account with
  | none => return Table.put (t.erase key) key row
  | some (previous, _) =>
    if previous = key then
      -- only the case changes
      return t.alter key fun row => { row with login := login }
    else
      let released := t.alter previous fun row => { row with releasedAt := some now }
      return Table.put (released.erase key) key row

/-- `set_own`; `lower` is `str.lower`. -/
def setOwn (lower : String → String) (t : Rows) (account : ℕ) (login : String) (now : ℕ) :
    Except Denied Rows := do
  let had := current t account
  if had.any (fun had => lower had != lower login) = true ∧
      (changeAvailableAt t account now).isSome then
    throw ⟨"login_change_too_soon", 409⟩
  claim t account login (if had = none then .first else .change) now

/-- `release`. -/
def release (t : Rows) (account now : ℕ) : Rows :=
  t.mapRows fun _ row =>
    if row.account = account ∧ row.releasedAt = none then { row with releasedAt := some now }
    else row

end Logins
end NodePlane
