import NodePlane.Controller.Logins
import Mathlib.Logic.Relation

/-! Passwords and sessions: sign-in with its limits, the rotation of refresh tokens, revocations,
password changes, and what the deletion of an account does to them. Times are seconds. A digest
stands for what it digests and a password's hash for the password, so two tokens agree exactly
when their digests do; devices, methods and what only a list of sessions shows are left out. -/
namespace NodePlane
namespace Sessions
open Library
open Accounts (Denied)

/-- `ACCESS_TTL`. -/
def accessTtl : ℕ := 15 * 60

/-- `IDLE_TTL`. -/
def idleTtl : ℕ := 30 * 24 * 60 * 60

/-- `WINDOW`. -/
def window : ℕ := 15 * 60

def loginFailures : ℕ := 5

def sourceFailures : ℕ := 30

/-- A row of `backend_sessions`. -/
structure Session where
  account : ℕ
  /-- `refresh_hash`: the secret of the current refresh token. -/
  refresh : ℕ
  /-- `previous_refresh_hash`. -/
  previous : Option ℕ
  expiresAt : ℕ
  revokedAt : Option ℕ
  deriving DecidableEq, Repr

/-- A row of `backend_credentials` of the kind `account`. -/
structure Credential where
  secret : ℕ
  account : ℕ
  expiresAt : ℕ
  session : Option ℕ
  revokedAt : Option ℕ
  deriving DecidableEq, Repr

inductive Scope
  | login (key : String)
  | confirm (account : ℕ)
  | source (source : String)
  deriving DecidableEq, Repr

/-- A row of `backend_login_attempts`. -/
structure Attempt where
  scope : Scope
  attemptedAt : ℕ
  deriving DecidableEq, Repr

/-- `nps_<session>.<secret>`. -/
structure RefreshToken where
  session : ℕ
  secret : ℕ
  deriving DecidableEq, Repr

/-- `np_<credential>.<secret>`. -/
structure AccessToken where
  credential : ℕ
  secret : ℕ
  deriving DecidableEq, Repr

/-- What a sign-in or a refresh replies with. -/
structure Tokens where
  session : ℕ
  access : AccessToken
  accessExpiresAt : ℕ
  refresh : RefreshToken
  refreshExpiresAt : ℕ
  deriving DecidableEq, Repr

structure Db where
  accounts : Table ℕ Accounts.Row
  /-- `backend_account_deletions`. -/
  deletions : List ℕ
  logins : Logins.Rows
  passwords : Table ℕ String
  attempts : List Attempt
  sessions : Table ℕ Session
  credentials : Table ℕ Credential
  /-- Every id and secret that was drawn is below it. -/
  drawn : ℕ

def invalidCredentials : Denied := ⟨"invalid_credentials", 401⟩

def sessionRevoked : Denied := ⟨"session_revoked", 401⟩

/-! Tokens -/

/-- `_issue`: an access token of the session. -/
def Db.issue (db : Db) (account session now : ℕ) : AccessToken × ℕ × Db :=
  let token : AccessToken := ⟨db.drawn, db.drawn + 1⟩
  let expires := now + accessTtl
  (token, expires, { db with
    credentials := db.credentials.put token.credential
      ⟨token.secret, account, expires, some session, none⟩
    drawn := db.drawn + 2 })

/-- `_tokens`. -/
def Db.tokens (db : Db) (session account now : ℕ) : Tokens × Db :=
  let (access, accessExpires, db) := db.issue account session now
  let refresh : RefreshToken := ⟨session, db.drawn⟩
  (⟨session, access, accessExpires, refresh, now + idleTtl⟩, { db with drawn := db.drawn + 1 })

/-- `open_session`. -/
def Db.openSession (db : Db) (account now : ℕ) : Tokens × Db :=
  let session := db.drawn
  let (result, db) := { db with drawn := db.drawn + 1 }.tokens session account now
  (result, { db with
    sessions := db.sessions.put session
      ⟨account, result.refresh.secret, none, result.refreshExpiresAt, none⟩ })

/-! Ending sessions -/

/-- `_revoke`. -/
def Db.revokeSession (db : Db) (session now : ℕ) : Db where
  accounts := db.accounts
  deletions := db.deletions
  logins := db.logins
  passwords := db.passwords
  attempts := db.attempts
  sessions := db.sessions.mapRows fun id row =>
    if id = session ∧ row.revokedAt = none then { row with revokedAt := some now } else row
  credentials := db.credentials.mapRows fun _ row =>
    if row.session = some session ∧ row.revokedAt = none then { row with revokedAt := some now }
    else row
  drawn := db.drawn

/-- `revoke`. -/
def Db.revoke (db : Db) (account session now : ℕ) : Except Denied Db :=
  if db.sessions.has fun id row =>
      decide (id = session ∧ row.account = account ∧ row.revokedAt = none) then
    .ok (db.revokeSession session now)
  else .error ⟨"resource_not_found", 404⟩

/-- The account's sessions that are not revoked. -/
def Db.openSessions (db : Db) (account : ℕ) : List ℕ :=
  (db.sessions.rows.filter fun (_, row) =>
    decide (row.account = account ∧ row.revokedAt = none)).map Prod.fst

/-- `revoke_all`. -/
def Db.revokeAll (db : Db) (account : ℕ) (keep : Option ℕ) (now : ℕ) : Db :=
  (db.openSessions account).foldl
    (fun db session => if keep = some session then db else db.revokeSession session now) db

/-- `CredentialService.revoke`. -/
def Db.revokeCredential (db : Db) (credential now : ℕ) : Db :=
  { db with credentials :=
      db.credentials.alter credential fun row => { row with revokedAt := some now } }

/-! Passwords and sign-in -/

section Lower
-- `str.lower`
variable (lower : String → String)

/-- `checked_password` of a password given as text, or none. -/
def checkedPassword (password : Option String) (login : Option String) : Except Denied String :=
  match password with
  | none => .error ⟨"password_invalid", 422⟩
  | some password =>
    if ¬(10 ≤ password.length ∧ password.length ≤ 256) then .error ⟨"password_invalid", 422⟩
    else if (login.any fun login => !login.isEmpty && lower password == lower login) = true then
      .error ⟨"password_invalid", 422⟩
    else .ok password

/-- `set_password`. -/
def Db.setPassword (db : Db) (account : ℕ) (password current : Option String) (keep : Option ℕ)
    (now : ℕ) : Except Denied Db := do
  let password ← checkedPassword lower password (Logins.current db.logins account)
  let held := db.passwords.lookup account
  if held.isSome ∧ current ≠ held then
    throw ⟨"password_incorrect", 403⟩
  let db := { db with passwords := db.passwords.put account password }
  return if held.isSome then db.revokeAll account keep now else db

/-- `_failures`. -/
def Db.failures (db : Db) (scope : Scope) (now : ℕ) : ℕ :=
  (db.attempts.filter fun attempt =>
    decide (attempt.scope = scope ∧ now < attempt.attemptedAt + window)).length

def Scope.limit : Scope → ℕ
  | .login _ | .confirm _ => loginFailures
  | .source _ => sourceFailures

/-- `limited` raises. -/
def Db.limited (db : Db) (scopes : List Scope) (now : ℕ) : Bool :=
  scopes.any fun scope => decide (scope.limit ≤ db.failures scope now)

/-- `failed`. -/
def Db.failed (db : Db) (scopes : List Scope) (now : ℕ) : Db :=
  { db with attempts :=
      (db.attempts ++ scopes.map fun scope => Attempt.mk scope now).filter fun attempt =>
        decide (now < attempt.attemptedAt + window) }

def sourceScope (source : Option String) : Scope :=
  .source (match source with
    | none | some "" => "unknown"
    | some source => source)

/-- `ACTIVE_ACCOUNT_SQL`. -/
def Db.active (db : Db) (account : ℕ) : Bool :=
  (db.accounts.lookup account).any (fun row => decide (row.status = .approved)) &&
    decide (account ∉ db.deletions)

/-- The account and password that a login's key stands for. -/
def Db.byKey (db : Db) (key : String) : Option (ℕ × String) := do
  let row ← db.logins.lookup key
  let password ← db.passwords.lookup row.account
  guard (key ≠ "" ∧ row.releasedAt = none ∧ db.active row.account = true)
  return (row.account, password)

/-- The key that a login given as text, or none, is looked up by. -/
def loginKey (login : Option String) : String :=
  match login with
  | none => ""
  | some login => if login.length ≤ 32 then lower login else ""

/-- `sign_in`: a refused pair is counted outside the refusal. -/
def Db.signIn (db : Db) (login password source : Option String) (now : ℕ) :
    Except Denied Tokens × Db :=
  let key := loginKey lower login
  let scopes := [.login key, sourceScope source]
  if db.limited scopes now = true then (.error ⟨"sign_in_rate_limited", 429⟩, db)
  else
    match db.byKey key with
    | none => (.error ⟨"sign_in_failed", 401⟩, db.failed scopes now)
    | some (account, stored) =>
      if password.getD "" ≠ stored then
        (.error ⟨"sign_in_failed", 401⟩, db.failed scopes now)
      else
        let kept := db.attempts.filter fun attempt => decide (attempt.scope ≠ .login key)
        let (result, db) := { db with attempts := kept }.openSession account now
        (.ok result, db)

end Lower

/-! Refreshes. The row is read first; PostgreSQL lets other transactions commit before the rest,
which writes the row as it is by then. -/

/-- The row that a refresh goes by. -/
def Db.readSession (db : Db) (token : RefreshToken) (now : ℕ) : Except Denied Session :=
  match db.sessions.lookup token.session with
  | none => .error invalidCredentials
  | some row =>
    if row.revokedAt ≠ none ∨ row.expiresAt ≤ now then .error invalidCredentials
    else .ok row

/-- A refresh between its read and its writes. -/
structure Reading where
  token : RefreshToken
  row : Session
  now : ℕ
  deriving DecidableEq, Repr

/-- The rest of `refresh`. -/
def Db.exchange (db : Db) (reading : Reading) : Except Denied Tokens × Db :=
  let { token, row, now } := reading
  if row.previous = some token.secret then
    (.error sessionRevoked, db.revokeSession token.session now)
  else if row.refresh ≠ token.secret then (.error invalidCredentials, db)
  else
    let left := db.credentials.keep fun _ credential =>
      !decide (credential.session = some token.session ∧ credential.expiresAt ≤ now)
    let (result, db) := { db with credentials := left }.tokens token.session row.account now
    let rotated (row : Session) : Session :=
      { row with
        previous := some row.refresh, refresh := result.refresh.secret
        expiresAt := result.refreshExpiresAt }
    (.ok result, { db with sessions := db.sessions.alter token.session rotated })

/-- `refresh`, with nothing between the read and the writes. -/
def Db.refresh (db : Db) (token : Option RefreshToken) (now : ℕ) : Except Denied Tokens × Db :=
  match token with
  | none => (.error invalidCredentials, db)
  | some token =>
    match db.readSession token now with
    | .error denied => (.error denied, db)
    | .ok row => db.exchange ⟨token, row, now⟩

/-- `CredentialService.authenticate`, as far as a session's tokens go. -/
def Db.authenticate (db : Db) (token : AccessToken) (now : ℕ) : Except Denied Credential :=
  match db.credentials.lookup token.credential with
  | none => .error invalidCredentials
  | some row =>
    if row.secret ≠ token.secret then .error invalidCredentials
    else if row.revokedAt ≠ none then .error invalidCredentials
    else if row.expiresAt ≤ now then .error invalidCredentials
    else .ok row

/-- `account_deletions.begin`; the account exists. -/
def Db.beginDeletion (db : Db) (account now : ℕ) : Db :=
  match db.accounts.lookup account with
  | none => db
  | some row =>
    let stopped (row : Credential) : Credential :=
      if row.account = account ∧ row.revokedAt = none then { row with revokedAt := some now }
      else row
    let db := { db with
      deletions := if account ∈ db.deletions then db.deletions else db.deletions ++ [account]
      accounts := db.accounts.put account
        { row with status := .disabled, revision := row.revision + 1 }
      credentials := db.credentials.mapRows fun _ row => stopped row
      logins := Logins.release db.logins account now }
    let db := db.revokeAll account none now
    { db with passwords := db.passwords.erase account }

/-! Runs -/

structure State where
  db : Db
  /-- The refreshes between their read and their writes. -/
  reads : List Reading
  /-- The refresh tokens that have yielded new ones, oldest first; nothing reads it. -/
  spent : List RefreshToken

inductive Op
  | signIn (login password source : Option String) (now : ℕ)
  /-- A sign-in by a passkey, an invite, a registration or Telegram. -/
  | openSession (account now : ℕ)
  | present (token : Option RefreshToken) (now : ℕ)
  | commit (read : ℕ)
  /-- The refresh goes no further. -/
  | abandon (read : ℕ)
  | revoke (account session now : ℕ)
  | revokeAll (account : ℕ) (keep : Option ℕ) (now : ℕ)
  | revokeCredential (credential now : ℕ)
  | setPassword (account : ℕ) (password current : Option String) (keep : Option ℕ) (now : ℕ)
  | beginDeletion (account now : ℕ)

inductive Reply
  | done
  | tokens (tokens : Tokens)
  | denied (denied : Denied)
  deriving DecidableEq, Repr

def Reply.of : Except Denied Tokens → Reply
  | .ok result => .tokens result
  | .error refusal => .denied refusal

section Runs
variable (lower : String → String)

def State.committed (s : State) (read : ℕ) (reading : Reading) : Reply × State :=
  let (result, db) := s.db.exchange reading
  (.of result, {
    db := db
    reads := s.reads.eraseIdx read
    spent := match result with
      | .ok _ => s.spent ++ [reading.token]
      | .error _ => s.spent })

/-- What a transaction replies, and what it leaves. -/
def State.step (s : State) : Op → Reply × State
  | .signIn login password source now =>
    let (result, db) := s.db.signIn lower login password source now
    (.of result, { s with db := db })
  | .openSession account now =>
    let (result, db) := s.db.openSession account now
    (.tokens result, { s with db := db })
  | .present none _ => (.denied invalidCredentials, s)
  | .present (some token) now =>
    match s.db.readSession token now with
    | .error denied => (.denied denied, s)
    | .ok row => (.done, { s with reads := s.reads ++ [⟨token, row, now⟩] })
  | .commit read =>
    match s.reads[read]? with
    | none => (.done, s)
    | some reading => s.committed read reading
  | .abandon read => (.done, { s with reads := s.reads.eraseIdx read })
  | .revoke account session now =>
    match s.db.revoke account session now with
    | .error denied => (.denied denied, s)
    | .ok db => (.done, { s with db := db })
  | .revokeAll account keep now => (.done, { s with db := s.db.revokeAll account keep now })
  | .revokeCredential credential now =>
    (.done, { s with db := s.db.revokeCredential credential now })
  | .setPassword account password current keep now =>
    match s.db.setPassword lower account password current keep now with
    | .error denied => (.denied denied, s)
    | .ok db => (.done, { s with db := db })
  | .beginDeletion account now => (.done, { s with db := s.db.beginDeletion account now })

/-- The state after `ops`, oldest first. -/
def State.run (s : State) (ops : List Op) : State :=
  ops.foldl (fun s op => (s.step lower op).2) s

end Runs

/-- No session is open yet. -/
def State.initial (accounts : Table ℕ Accounts.Row) (deletions : List ℕ) (logins : Logins.Rows)
    (passwords : Table ℕ String) (attempts : List Attempt) : State where
  db := ⟨accounts, deletions, logins, passwords, attempts, ∅, ∅, 0⟩
  reads := []
  spent := []

end Sessions
end NodePlane
