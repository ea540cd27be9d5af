import NodePlane.Controller.Sessions
import NodePlane.Controller.OwnerUpdates

/-! What a run keeps of refresh tokens: each yields at most once, a second use ends the session,
and a revoked session accepts nothing. -/
namespace NodePlane
namespace Sessions
open Library
open Accounts (Denied)

variable {db mid next : Db} {session account now : ℕ}

/-- The session's row says that it is revoked. -/
def Db.revoked (db : Db) (session : ℕ) : Prop :=
  ∃ row, db.sessions.lookup session = some row ∧ row.revokedAt ≠ none

/-- Ids and secrets were drawn, and the credentials of a revoked session are revoked. -/
structure Sound (db : Db) : Prop where
  drawn : ∀ id row, db.sessions.lookup id = some row → id < db.drawn ∧ row.refresh < db.drawn
  named : ∀ key row id, db.credentials.lookup key = some row → row.session = some id →
    ∃ session, db.sessions.lookup id = some session
  ended : ∀ key row id, db.credentials.lookup key = some row → row.session = some id →
    db.revoked id → row.revokedAt ≠ none

/-- What a transaction does to the sessions: rows stay, revoked ones too, and a refresh token
stays or is drawn. -/
structure Follows (db next : Db) : Prop where
  drawn : db.drawn ≤ next.drawn
  kept : ∀ id row, db.sessions.lookup id = some row → ∃ later, next.sessions.lookup id = some later
  revoked : ∀ id, db.revoked id → next.revoked id
  refresh : ∀ id later, next.sessions.lookup id = some later → db.drawn ≤ later.refresh ∨
    ∃ row, db.sessions.lookup id = some row ∧ row.refresh = later.refresh

/-- A transaction that keeps the tables sound. -/
structure Keeps (db next : Db) : Prop extends Follows db next where
  sound : Sound db → Sound next

namespace Keeps

theorem of_same (sessions : next.sessions = db.sessions)
    (credentials : next.credentials = db.credentials) (drawn : next.drawn = db.drawn) :
    Keeps db next where
  drawn := drawn.ge
  kept id row found := ⟨row, by rw [sessions]; exact found⟩
  revoked id held := by
    simpa only [Db.revoked, sessions] using held
  refresh id later found := .inr ⟨later, by rw [← sessions]; exact found, rfl⟩
  sound held := by
    constructor
    · rw [sessions, drawn]
      exact held.drawn
    · rw [sessions, credentials]
      exact held.named
    · simp only [Db.revoked, sessions, credentials]
      exact held.ended

theorem refl (db : Db) : Keeps db db := of_same rfl rfl rfl

theorem trans (first : Keeps db mid) (second : Keeps mid next) : Keeps db next where
  drawn := first.drawn.trans second.drawn
  kept id row found := by
    obtain ⟨row, found⟩ := first.kept id row found
    exact second.kept id row found
  revoked id held := second.revoked id (first.revoked id held)
  refresh id later found := by
    rcases second.refresh id later found with high | ⟨row, found, same⟩
    · exact .inl (first.drawn.trans high)
    · rw [← same]
      exact first.refresh id row found
  sound held := second.sound (first.sound held)

/-- The credentials become fewer, or revoked. -/
theorem of_credentials {db next : Db} (sessions : next.sessions = db.sessions)
    (drawn : next.drawn = db.drawn) (fewer : ∀ key later, next.credentials.lookup key = some later →
      ∃ row, db.credentials.lookup key = some row ∧ row.session = later.session ∧
        (row.revokedAt ≠ none → later.revokedAt ≠ none)) :
    Keeps db next where
  drawn := drawn.ge
  kept id row found := ⟨row, by rw [sessions]; exact found⟩
  revoked id held := by
    simpa only [Db.revoked, sessions] using held
  refresh id later found := .inr ⟨later, by rw [← sessions]; exact found, rfl⟩
  sound held := by
    constructor
    · rw [sessions, drawn]
      exact held.drawn
    · intro key later id found of
      obtain ⟨row, old, same, _⟩ := fewer key later found
      rw [sessions]
      exact held.named key row id old (same.trans of)
    · intro key later id found of gone
      obtain ⟨row, old, same, stays⟩ := fewer key later found
      simp only [Db.revoked, sessions] at gone
      exact stays (held.ended key row id old (same.trans of) gone)

end Keeps

/-! Revocations -/

section Revoking

theorem revokeSession_sessions (db : Db) (session now id : ℕ) :
    (db.revokeSession session now).sessions.lookup id = (db.sessions.lookup id).map fun row =>
      if id = session ∧ row.revokedAt = none then { row with revokedAt := some now } else row := by
  rw [Db.revokeSession, Table.lookup_mapRows]

theorem revokeSession_credentials (db : Db) (session now key : ℕ) :
    (db.revokeSession session now).credentials.lookup key =
      (db.credentials.lookup key).map fun row =>
        if row.session = some session ∧ row.revokedAt = none then
          { row with revokedAt := some now }
        else row := by
  rw [Db.revokeSession, Table.lookup_mapRows]

/-- A row after `_revoke`. -/
theorem of_revokeSession {id : ℕ} {later : Session}
    (found : (db.revokeSession session now).sessions.lookup id = some later) :
    ∃ row, db.sessions.lookup id = some row ∧ row.refresh = later.refresh ∧
      (row.revokedAt ≠ none → later.revokedAt ≠ none) ∧
      (later.revokedAt ≠ none → row.revokedAt ≠ none ∨ id = session) := by
  rw [revokeSession_sessions] at found
  obtain ⟨row, old, rfl⟩ := Option.map_eq_some_iff.mp found
  refine ⟨row, old, ?_⟩
  split <;> simp_all

theorem revokeSession_revokes {row : Session} (found : db.sessions.lookup session = some row) :
    (db.revokeSession session now).revoked session := by
  refine ⟨_, by rw [revokeSession_sessions, found, Option.map_some], ?_⟩
  by_cases open' : row.revokedAt = none
  · simp [open']
  · simp [open']

theorem revokeSession_revoked {id : ℕ} (held : db.revoked id) :
    (db.revokeSession session now).revoked id := by
  obtain ⟨row, found, gone⟩ := held
  refine ⟨_, by rw [revokeSession_sessions, found, Option.map_some], ?_⟩
  simp [gone]

theorem keeps_revokeSession (db : Db) (session now : ℕ) :
    Keeps db (db.revokeSession session now) where
  drawn := le_rfl
  kept id row found := ⟨_, by rw [revokeSession_sessions, found, Option.map_some]⟩
  revoked id held := revokeSession_revoked held
  refresh id later found := by
    obtain ⟨row, old, same, _⟩ := of_revokeSession found
    exact .inr ⟨row, old, same⟩
  sound held := by
    constructor
    · intro id later found
      obtain ⟨row, old, same, _⟩ := of_revokeSession found
      rw [← same]
      exact held.drawn id row old
    · intro key later id found of
      rw [revokeSession_credentials] at found
      obtain ⟨row, old, rfl⟩ := Option.map_eq_some_iff.mp found
      have of : row.session = some id := by split at of <;> exact of
      obtain ⟨session', found⟩ := held.named key row id old of
      exact ⟨_, by rw [revokeSession_sessions, found, Option.map_some]⟩
    · intro key later id found of gone
      rw [revokeSession_credentials] at found
      obtain ⟨row, old, rfl⟩ := Option.map_eq_some_iff.mp found
      have whose : row.session = some id := by split at of <;> exact of
      obtain ⟨after, found, gone⟩ := gone
      obtain ⟨before, was, _, _, why⟩ := of_revokeSession found
      split
      · simp
      · next closed =>
        rcases why gone with gone | rfl
        · exact held.ended key row id old whose ⟨before, was, gone⟩
        · intro unset
          exact closed ⟨whose, unset⟩

theorem keeps_revokeAll (db : Db) (account : ℕ) (keep : Option ℕ) (now : ℕ) :
    Keeps db (db.revokeAll account keep now) := by
  unfold Db.revokeAll
  generalize db.openSessions account = ids
  induction ids generalizing db with
  | nil => exact Keeps.refl db
  | cons id ids ih =>
    rw [List.foldl_cons]
    apply Keeps.trans ?_ (ih _)
    split
    · exact Keeps.refl db
    · exact keeps_revokeSession db id now

theorem keeps_revoke (ok : db.revoke account session now = .ok next) : Keeps db next := by
  unfold Db.revoke at ok
  split at ok
  · cases ok
    exact keeps_revokeSession db session now
  · cases ok

theorem keeps_revokeCredential (db : Db) (credential now : ℕ) :
    Keeps db (db.revokeCredential credential now) := by
  apply Keeps.of_credentials
  · rfl
  · rfl
  · intro key later found
    rw [Db.revokeCredential, Table.lookup_alter] at found
    split at found
    · next same =>
      subst same
      obtain ⟨row, old, rfl⟩ := Option.map_eq_some_iff.mp found
      exact ⟨row, old, rfl, by simp⟩
    · exact ⟨later, found, rfl, fun gone => gone⟩

theorem keeps_beginDeletion (db : Db) (account now : ℕ) :
    Keeps db (db.beginDeletion account now) := by
  unfold Db.beginDeletion
  split
  · exact Keeps.refl db
  · refine Keeps.trans (Keeps.trans ?_ (keeps_revokeAll _ account none now))
      (Keeps.of_same rfl rfl rfl)
    apply Keeps.of_credentials
    · rfl
    · rfl
    · intro key later found
      rw [Table.lookup_mapRows] at found
      obtain ⟨row, old, rfl⟩ := Option.map_eq_some_iff.mp found
      refine ⟨row, old, ?_⟩
      dsimp only
      split <;> simp_all

end Revoking

/-! Passwords and new sessions -/

section Opening
variable {lower : String → String}

theorem keeps_setPassword {password current : Option String} {keep : Option ℕ}
    (ok : db.setPassword lower account password current keep now = .ok next) : Keeps db next := by
  unfold Db.setPassword at ok
  cases checked : checkedPassword lower password (Logins.current db.logins account) with
  | error denied =>
    rw [checked] at ok
    cases ok
  | ok password =>
    rw [checked] at ok
    obtain ⟨_, ok⟩ := Accounts.of_check ok
    cases ok
    split
    · apply Keeps.trans ?_ (keeps_revokeAll _ account keep now)
      exact Keeps.of_same rfl rfl rfl
    · exact Keeps.of_same rfl rfl rfl

/-- The drawn tokens of an open session's row. -/
theorem keeps_tokens {row : Session} (sound : Sound db) (account : ℕ)
    (found : db.sessions.lookup session = some row) (live : row.revokedAt = none) :
    Keeps db (db.tokens session account now).2 where
  drawn := by simp only [Db.tokens, Db.issue]; omega
  kept id row found := ⟨row, found⟩
  revoked id held := held
  refresh id later found := .inr ⟨later, found, rfl⟩
  sound _ := by
    constructor
    · intro id row found
      obtain ⟨low, low'⟩ := sound.drawn id row found
      simp only [Db.tokens, Db.issue]
      omega
    · intro key credential id old of
      simp only [Db.tokens, Db.issue] at old
      rw [Table.lookup_put] at old
      split at old
      · cases old
        cases of
        exact ⟨row, found⟩
      · exact sound.named key credential id old of
    · intro key credential id old of gone
      simp only [Db.tokens, Db.issue] at old
      rw [Table.lookup_put] at old
      split at old
      · cases old
        cases of
        obtain ⟨same, again, gone⟩ := gone
        have again : db.sessions.lookup session = some same := again
        rw [found] at again
        cases again
        exact absurd live gone
      · exact sound.ended key credential id old of gone

theorem keeps_openSession (sound : Sound db) (account now : ℕ) :
    Keeps db (db.openSession account now).2 := by
  have unused : ∀ row, db.sessions.lookup db.drawn ≠ some row := fun row found => by
    have low := (sound.drawn _ row found).1
    omega
  have apart : ∀ {id row}, db.sessions.lookup id = some row → id ≠ db.drawn := by
    rintro id row found rfl
    exact unused row found
  have unrevoked : ∀ {id}, (db.openSession account now).2.revoked id → id ≠ db.drawn ∧ db.revoked id := by
    rintro id ⟨row, found, gone⟩
    simp only [Db.openSession, Db.tokens, Db.issue] at found
    rw [Table.lookup_put] at found
    split at found
    · cases found
      exact absurd rfl gone
    · next other => exact ⟨other, row, found, gone⟩
  constructor
  · constructor
    · simp only [Db.openSession, Db.tokens, Db.issue]
      omega
    · intro id row found
      refine ⟨row, ?_⟩
      simp only [Db.openSession, Db.tokens, Db.issue]
      rw [Table.lookup_put_ne _ (apart found), found]
    · rintro id ⟨row, found, gone⟩
      refine ⟨row, ?_, gone⟩
      simp only [Db.openSession, Db.tokens, Db.issue]
      rw [Table.lookup_put_ne _ (apart found), found]
    · intro id later found
      simp only [Db.openSession, Db.tokens, Db.issue] at found
      rw [Table.lookup_put] at found
      split at found
      · cases found
        exact .inl (by simp only; omega)
      · exact .inr ⟨later, found, rfl⟩
  · intro _
    constructor
    · intro id row found
      simp only [Db.openSession, Db.tokens, Db.issue] at found ⊢
      rw [Table.lookup_put] at found
      split at found
      · next same =>
        cases found
        simp only
        omega
      · obtain ⟨low, low'⟩ := sound.drawn id row found
        omega
    · intro key credential id old of
      simp only [Db.openSession, Db.tokens, Db.issue] at old ⊢
      rw [Table.lookup_put] at old
      split at old
      · cases old
        cases of
        exact ⟨_, Table.lookup_put_self _ _ _⟩
      · obtain ⟨row, found⟩ := sound.named key credential id old of
        exact ⟨row, by rw [Table.lookup_put_ne _ (apart found), found]⟩
    · intro key credential id old of gone
      obtain ⟨other, gone⟩ := unrevoked gone
      simp only [Db.openSession, Db.tokens, Db.issue] at old
      rw [Table.lookup_put] at old
      split at old
      · cases old
        cases of
        exact absurd rfl other
      · exact sound.ended key credential id old of gone

theorem keeps_signIn (sound : Sound db) (login password source : Option String) (now : ℕ) :
    Keeps db (db.signIn lower login password source now).2 := by
  unfold Db.signIn
  generalize loginKey lower login = key
  dsimp only
  split
  · exact Keeps.refl db
  · split
    · exact Keeps.of_same rfl rfl rfl
    · next held stored _ =>
      split
      · exact Keeps.of_same rfl rfl rfl
      · let forgiven : Db := { db with
          attempts := db.attempts.filter fun attempt => decide (attempt.scope ≠ .login key) }
        have start : Keeps db forgiven := Keeps.of_same rfl rfl rfl
        exact start.trans (keeps_openSession (start.sound sound) held now)

end Opening

/-! Refreshes -/

section Exchanging

/-- The session has the presented token as its current one, and is not revoked. -/
def Db.stands (db : Db) (token : RefreshToken) : Bool :=
  (db.sessions.lookup token.session).any fun row =>
    decide (row.refresh = token.secret ∧ row.revokedAt = none)

/-- The session is not revoked. -/
def Db.isOpen (db : Db) (session : ℕ) : Bool :=
  (db.sessions.lookup session).any fun row => decide (row.revokedAt = none)

theorem Db.stands_iff {token : RefreshToken} :
    db.stands token = true ↔ ∃ row, db.sessions.lookup token.session = some row ∧
      row.refresh = token.secret ∧ row.revokedAt = none := by
  simp [Db.stands, Option.any_eq_true]

theorem Db.isOpen_iff : db.isOpen session = true ↔
    ∃ row, db.sessions.lookup session = some row ∧ row.revokedAt = none := by
  simp [Db.isOpen, Option.any_eq_true]

theorem Db.revoked_of_not_open {row : Session} (found : db.sessions.lookup session = some row)
    (closed : db.isOpen session = false) : db.revoked session := by
  refine ⟨row, found, fun unset => ?_⟩
  rw [Db.isOpen_iff.mpr ⟨row, found, unset⟩] at closed
  cases closed

theorem Db.stands_not_revoked {token : RefreshToken} (stands : db.stands token = true) :
    ¬ db.revoked token.session := by
  rintro ⟨row, found, gone⟩
  obtain ⟨same, again, _, unset⟩ := Db.stands_iff.mp stands
  rw [found] at again
  cases again
  exact gone unset

/-- A new refresh token in a session's row. -/
theorem sound_rotated (sound : Sound db) {f : Session → Session}
    (low : ∀ row, (f row).refresh < db.drawn) (same : ∀ row, (f row).revokedAt = row.revokedAt) :
    Sound { db with sessions := db.sessions.alter session f } := by
  constructor
  · intro id later found
    rw [Table.lookup_alter] at found
    split at found
    · next here =>
      subst here
      obtain ⟨row, old, rfl⟩ := Option.map_eq_some_iff.mp found
      exact ⟨(sound.drawn _ row old).1, low row⟩
    · exact sound.drawn id later found
  · intro key credential id old of
    obtain ⟨row, found⟩ := sound.named key credential id old of
    rw [Table.lookup_alter]
    split
    · next here =>
      subst here
      exact ⟨f row, by rw [found, Option.map_some]⟩
    · exact ⟨row, found⟩
  · rintro key credential id old of ⟨later, found, gone⟩
    apply sound.ended key credential id old of
    rw [Table.lookup_alter] at found
    split at found
    · next here =>
      subst here
      obtain ⟨row, old, rfl⟩ := Option.map_eq_some_iff.mp found
      exact ⟨row, old, by rwa [same] at gone⟩
    · exact ⟨later, found, gone⟩

theorem follows_rotated {f : Session → Session} (drawn : db.drawn ≤ next.drawn)
    (sessions : next.sessions = db.sessions.alter session f)
    (high : ∀ row, db.drawn ≤ (f row).refresh) (same : ∀ row, (f row).revokedAt = row.revokedAt) :
    Follows db next := by
  have after : ∀ id, next.sessions.lookup id =
      if id = session then (db.sessions.lookup session).map f else db.sessions.lookup id := by
    intro id
    rw [sessions, Table.lookup_alter]
  constructor
  · exact drawn
  · intro id row found
    by_cases here : id = session
    · subst here
      exact ⟨f row, by rw [after, if_pos rfl, found, Option.map_some]⟩
    · exact ⟨row, by rw [after, if_neg here, found]⟩
  · rintro id ⟨row, found, gone⟩
    by_cases here : id = session
    · subst here
      exact ⟨f row, by rw [after, if_pos rfl, found, Option.map_some], by rwa [same]⟩
    · exact ⟨row, by rw [after, if_neg here, found], gone⟩
  · intro id later found
    rw [after] at found
    split at found
    · obtain ⟨row, _, rfl⟩ := Option.map_eq_some_iff.mp found
      exact .inl (high row)
    · exact .inr ⟨later, found, rfl⟩

/-- The refreshes that go by the row as it stands, or end the session, or are refused. -/
theorem keeps_exchange (sound : Sound db) (reading : Reading)
    (stands : reading.row.previous ≠ some reading.token.secret →
      reading.row.refresh = reading.token.secret → db.stands reading.token = true) :
    Keeps db (db.exchange reading).2 := by
  obtain ⟨token, read, now⟩ := reading
  unfold Db.exchange
  dsimp only at stands ⊢
  split
  · exact keeps_revokeSession db token.session now
  next notLast =>
  split
  · exact Keeps.refl db
  next current =>
  obtain ⟨row, found, here, live⟩ := Db.stands_iff.mp (stands notLast (not_not.mp current))
  let unexpired := db.credentials.keep fun _ credential =>
    !decide (credential.session = some token.session ∧ credential.expiresAt ≤ now)
  let left : Db := { db with credentials := unexpired }
  have fewer : Keeps db left := by
    apply Keeps.of_credentials
    · rfl
    · rfl
    · intro key later kept
      exact ⟨later, (Table.lookup_keep.mp kept).1, rfl, fun gone => gone⟩
  have drawn : Keeps db (left.tokens token.session read.account now).2 :=
    fewer.trans (keeps_tokens (fewer.sound sound) read.account found live)
  constructor
  · apply follows_rotated
    · exact drawn.drawn
    · rfl
    · intro row
      exact Nat.le_add_right db.drawn 2
    · intro row
      rfl
  · intro _
    apply sound_rotated (drawn.sound sound)
    · intro row
      exact Nat.lt_succ_self (db.drawn + 2)
    · intro row
      rfl

/-- Without a refresh that is to come, presenting a token is a refresh in one piece. -/
theorem present_commit (lower : String → String) {s : State} (idle : s.reads = [])
    (token : RefreshToken) (now : ℕ) :
    (s.run lower [.present (some token) now, .commit 0]).db = (s.db.refresh (some token) now).2 := by
  unfold State.run Db.refresh
  simp only [List.foldl_cons, List.foldl_nil, State.step]
  cases s.db.readSession token now with
  | error denied => simp [idle]
  | ok row => simp [idle, State.committed]

end Exchanging

/-! Runs -/

section Runs
variable {lower : String → String} {s : State} {op : Op} {reading : Reading} {read : ℕ}

/-- A refresh by the current token finds it current still, in a session that is not revoked; and
no token that was rotated away earlier than the last one is presented for an open session. -/
def State.careful (s : State) : Op → Bool
  | .commit read =>
    match s.reads[read]? with
    | none => true
    | some reading =>
      if reading.row.previous = some reading.token.secret then true
      else if reading.row.refresh = reading.token.secret then s.db.stands reading.token
      else decide (reading.token ∈ s.spent → s.db.isOpen reading.token.session = false)
  | _ => true

/-- Every step is careful. -/
def State.carefulRun (lower : String → String) (s : State) : List Op → Bool
  | [] => true
  | op :: ops => s.careful op && (s.step lower op).2.carefulRun lower ops

/-- What holds in every state of a careful run. -/
structure Holds (s : State) : Prop where
  sound : Sound s.db
  old : ∀ token ∈ s.spent, token.secret < s.db.drawn
  rotated : ∀ token ∈ s.spent, ∀ row, s.db.sessions.lookup token.session = some row →
    row.refresh ≠ token.secret
  once : s.spent.Nodup
  reads : ∀ reading ∈ s.reads, ∃ row, s.db.sessions.lookup reading.token.session = some row

theorem Holds.initial (accounts : Table ℕ Accounts.Row) (deletions : List ℕ)
    (logins : Logins.Rows) (passwords : Table ℕ String) (attempts : List Attempt) :
    Holds (.initial accounts deletions logins passwords attempts) where
  sound := {
    drawn := fun id row found => by cases found
    named := fun key row id found => by cases found
    ended := fun key row id found => by cases found }
  old token spent := nomatch spent
  rotated token spent := nomatch spent
  once := List.nodup_nil
  reads reading pending := nomatch pending

/-- A spent token is not the current one after a step either. -/
theorem Holds.rotated_follows (holds : Holds s) (follows : Follows s.db next) {token : RefreshToken}
    (spent : token ∈ s.spent) {row : Session}
    (found : next.sessions.lookup token.session = some row) : row.refresh ≠ token.secret := by
  have low := holds.old token spent
  rcases follows.refresh _ row found with high | ⟨before, was, same⟩
  · omega
  · rw [← same]
    exact holds.rotated token spent before was

theorem Holds.of_keeps (holds : Holds s) (keeps : Keeps s.db next) {reads : List Reading}
    (pending : ∀ reading ∈ reads, reading ∈ s.reads ∨
      ∃ row, s.db.sessions.lookup reading.token.session = some row) :
    Holds ⟨next, reads, s.spent⟩ where
  sound := keeps.sound holds.sound
  old token spent := (holds.old token spent).trans_le keeps.drawn
  rotated token spent row found := holds.rotated_follows keeps.toFollows spent found
  once := holds.once
  reads reading listed := by
    rcases pending reading listed with listed | ⟨row, found⟩
    · obtain ⟨row, found⟩ := holds.reads reading listed
      exact keeps.kept _ row found
    · exact keeps.kept _ row found

/-- The refresh that a careful commit makes. -/
theorem careful_commit (pending : s.reads[read]? = some reading)
    (careful : s.careful (.commit read) = true) :
    (reading.row.previous ≠ some reading.token.secret →
      reading.row.refresh = reading.token.secret → s.db.stands reading.token = true) ∧
    (reading.row.previous ≠ some reading.token.secret →
      reading.row.refresh ≠ reading.token.secret → reading.token ∈ s.spent →
        s.db.isOpen reading.token.session = false) := by
  unfold State.careful at careful
  simp only [pending] at careful
  constructor
  · intro notLast current
    rwa [if_neg notLast, if_pos current] at careful
  · intro notLast other spent
    rw [if_neg notLast, if_neg other, decide_eq_true_iff] at careful
    exact careful spent

/-- A refresh that yields tokens went by the row's current token. -/
theorem exchange_ok {result : Tokens} (ok : (db.exchange reading).1 = .ok result) :
    reading.row.previous ≠ some reading.token.secret ∧
      reading.row.refresh = reading.token.secret := by
  unfold Db.exchange at ok
  dsimp only at ok
  split at ok
  · cases ok
  next notLast =>
  split at ok
  · cases ok
  next current => exact ⟨notLast, not_not.mp current⟩

theorem exchange_draws {result : Tokens} (ok : (db.exchange reading).1 = .ok result)
    {row : Session}
    (found : (db.exchange reading).2.sessions.lookup reading.token.session = some row) :
    db.drawn ≤ row.refresh := by
  obtain ⟨notLast, current⟩ := exchange_ok ok
  unfold Db.exchange at found
  dsimp only at found
  rw [if_neg notLast, if_neg (not_not.mpr current)] at found
  dsimp only at found
  rw [Table.lookup_alter, if_pos rfl] at found
  obtain ⟨before, _, rfl⟩ := Option.map_eq_some_iff.mp found
  exact Nat.le_add_right db.drawn 2

theorem Holds.committed (holds : Holds s) (pending : s.reads[read]? = some reading)
    (careful : s.careful (.commit read) = true) : Holds (s.committed read reading).2 := by
  obtain ⟨stands, _⟩ := careful_commit pending careful
  have keeps := keeps_exchange holds.sound reading stands
  have rest : Holds ⟨(s.db.exchange reading).2, s.reads.eraseIdx read, s.spent⟩ :=
    holds.of_keeps keeps fun other listed => .inl (List.mem_of_mem_eraseIdx listed)
  unfold State.committed
  cases result : (s.db.exchange reading).1 with
  | error denied => simpa [result] using rest
  | ok tokens =>
    obtain ⟨notLast, current⟩ := exchange_ok result
    obtain ⟨row, found, here, _⟩ := Db.stands_iff.mp (stands notLast current)
    have low : reading.token.secret < s.db.drawn := here ▸ (holds.sound.drawn _ row found).2
    have new : reading.token ∉ s.spent := fun spent => holds.rotated _ spent row found here
    simp only [result]
    constructor
    · exact rest.sound
    · intro token spent
      rcases List.mem_append.mp spent with spent | new
      · exact rest.old token spent
      · cases List.mem_singleton.mp new
        exact low.trans_le keeps.drawn
    · intro token spent later found
      rcases List.mem_append.mp spent with spent | new
      · exact rest.rotated token spent later found
      · cases List.mem_singleton.mp new
        have high := exchange_draws result found
        omega
    · exact List.nodup_append.mpr ⟨holds.once, List.nodup_singleton _, fun a spent b last same =>
        new (by rw [List.mem_singleton.mp last] at same; exact same ▸ spent)⟩
    · exact rest.reads

/-- A careful step, and what it keeps. -/
theorem Holds.step (holds : Holds s) (careful : s.careful op = true) :
    Holds (s.step lower op).2 ∧ Keeps s.db (s.step lower op).2.db := by
  have same : ∀ {next}, Keeps s.db next → Holds { s with db := next } ∧ Keeps s.db next :=
    fun keeps => ⟨holds.of_keeps keeps fun _ listed => .inl listed, keeps⟩
  cases op with
  | signIn login password source now => exact same (keeps_signIn holds.sound login password source now)
  | openSession account now => exact same (keeps_openSession holds.sound account now)
  | present token now =>
    cases token with
    | none => exact ⟨holds, Keeps.refl s.db⟩
    | some token =>
      simp only [State.step]
      cases read : s.db.readSession token now with
      | error denied => exact ⟨holds, Keeps.refl s.db⟩
      | ok row =>
        refine ⟨holds.of_keeps (Keeps.refl s.db) fun reading listed => ?_, Keeps.refl s.db⟩
        rcases List.mem_append.mp listed with listed | new
        · exact .inl listed
        · cases List.mem_singleton.mp new
          unfold Db.readSession at read
          split at read
          · cases read
          · next row found => exact .inr ⟨row, found⟩
  | commit read =>
    simp only [State.step]
    cases pending : s.reads[read]? with
    | none => exact ⟨holds, Keeps.refl s.db⟩
    | some reading =>
      exact ⟨holds.committed pending careful,
        keeps_exchange holds.sound reading (careful_commit pending careful).1⟩
  | abandon read =>
    exact ⟨holds.of_keeps (Keeps.refl s.db) fun _ listed =>
      .inl (List.mem_of_mem_eraseIdx listed), Keeps.refl s.db⟩
  | revoke account session now =>
    simp only [State.step]
    cases ok : s.db.revoke account session now with
    | error denied => exact ⟨holds, Keeps.refl s.db⟩
    | ok next => exact same (keeps_revoke ok)
  | revokeAll account keep now => exact same (keeps_revokeAll s.db account keep now)
  | revokeCredential credential now => exact same (keeps_revokeCredential s.db credential now)
  | setPassword account password current keep now =>
    simp only [State.step]
    cases ok : s.db.setPassword lower account password current keep now with
    | error denied => exact ⟨holds, Keeps.refl s.db⟩
    | ok next => exact same (keeps_setPassword ok)
  | beginDeletion account now => exact same (keeps_beginDeletion s.db account now)

theorem Holds.run (holds : Holds s) {ops : List Op} (careful : s.carefulRun lower ops = true) :
    Holds (s.run lower ops) ∧ Keeps s.db (s.run lower ops).db := by
  induction ops generalizing s with
  | nil => exact ⟨holds, Keeps.refl s.db⟩
  | cons op ops ih =>
    rw [State.carefulRun, Bool.and_eq_true] at careful
    have ⟨after, first⟩ : Holds (s.step lower op).2 ∧ Keeps s.db (s.step lower op).2.db :=
      holds.step careful.1
    obtain ⟨last, rest⟩ := ih after careful.2
    exact ⟨last, first.trans rest⟩

/-- A token that was rotated away ends the session, when its use is careful. -/
theorem Holds.second_use (holds : Holds s) (pending : s.reads[read]? = some reading)
    (careful : s.careful (.commit read) = true) (spent : reading.token ∈ s.spent) :
    (s.step lower (.commit read)).2.db.revoked reading.token.session := by
  obtain ⟨stands, last⟩ := careful_commit pending careful
  obtain ⟨row, found⟩ := holds.reads reading (List.mem_of_getElem? pending)
  simp only [State.step, pending, State.committed]
  by_cases previous : reading.row.previous = some reading.token.secret
  · unfold Db.exchange
    simp only [if_pos previous]
    exact revokeSession_revokes found
  · by_cases current : reading.row.refresh = reading.token.secret
    · obtain ⟨row, found, here, _⟩ := Db.stands_iff.mp (stands previous current)
      exact absurd here (holds.rotated _ spent row found)
    · have closed := last previous current spent
      unfold Db.exchange
      simp only [if_neg previous]
      rw [if_pos current]
      exact Db.revoked_of_not_open found closed

/-- A revoked session yields no tokens. -/
theorem revoked_refused (pending : s.reads[read]? = some reading)
    (careful : s.careful (.commit read) = true) (gone : s.db.revoked reading.token.session) :
    ∃ denied, (s.step lower (.commit read)).1 = .denied denied := by
  obtain ⟨stands, _⟩ := careful_commit pending careful
  simp only [State.step, pending, State.committed]
  cases result : (s.db.exchange reading).1 with
  | error denied => exact ⟨denied, rfl⟩
  | ok tokens =>
    obtain ⟨notLast, current⟩ := exchange_ok result
    exact absurd gone (Db.stands_not_revoked (stands notLast current))

theorem readSession_revoked {token : RefreshToken} (gone : db.revoked token.session) (now : ℕ) :
    db.readSession token now = .error invalidCredentials := by
  obtain ⟨row, found, gone⟩ := gone
  unfold Db.readSession
  simp [found, gone]

/-- What is accepted is no token of a revoked session. -/
theorem Sound.authenticated (sound : Sound db) {token : AccessToken} {row : Credential}
    (ok : db.authenticate token now = .ok row) (of : row.session = some session) :
    ¬ db.revoked session := by
  unfold Db.authenticate at ok
  split at ok
  · cases ok
  next row' found =>
  obtain ⟨_, ok⟩ := Accounts.of_check ok
  obtain ⟨unset, ok⟩ := Accounts.of_check ok
  obtain ⟨_, ok⟩ := Accounts.of_check ok
  cases ok
  exact fun gone => unset (sound.ended _ row session found of gone)

/-- In a run of careful steps each refresh token yields at most once, the second use of one ends
its session, and a revoked session stays revoked and nothing of it is accepted. -/
theorem tokens_kept (lower : String → String) (accounts : Table ℕ Accounts.Row) (deletions : List ℕ)
    (logins : Logins.Rows) (passwords : Table ℕ String) (attempts : List Attempt)
    (ops : List Op)
    (careful : (State.initial accounts deletions logins passwords attempts).carefulRun lower ops
      = true) :
    let s := (State.initial accounts deletions logins passwords attempts).run lower ops
    s.spent.Nodup ∧
    (∀ read reading, s.reads[read]? = some reading → s.careful (.commit read) = true →
      reading.token ∈ s.spent →
        (s.step lower (.commit read)).2.db.revoked reading.token.session) ∧
    ∀ session, s.db.revoked session →
      (∀ more, s.carefulRun lower more = true → (s.run lower more).db.revoked session) ∧
      (∀ token now, token.session = session →
        s.db.readSession token now = .error invalidCredentials) ∧
      (∀ read reading, s.reads[read]? = some reading → s.careful (.commit read) = true →
        reading.token.session = session →
          ∃ denied, (s.step lower (.commit read)).1 = .denied denied) ∧
      ∀ token now row, s.db.authenticate token now = .ok row → row.session ≠ some session := by
  intro s
  obtain ⟨holds, _⟩ := (Holds.initial accounts deletions logins passwords attempts).run careful
  refine ⟨holds.once, fun read reading pending careful spent =>
    holds.second_use pending careful spent, fun session gone => ⟨?_, ?_, ?_, ?_⟩⟩
  · intro more careful
    exact (holds.run careful).2.revoked session gone
  · rintro token now rfl
    exact readSession_revoked gone now
  · rintro read reading pending careful rfl
    exact revoked_refused pending careful gone
  · intro token now row ok of
    exact holds.sound.authenticated ok of gone

section Samples

private def aliceRow : Table ℕ Accounts.Row := Table.put ∅ 1 ⟨.member, .approved, 1⟩

private def aliceLogins : Logins.Rows := Table.put ∅ "alice" ⟨"Alice", 1, .first, 0, none⟩

private def alicePasswords : Table ℕ String := Table.put ∅ 1 "correct horse"

private def signedIn : List Op := [.signIn (some "Alice") (some "correct horse") none 0]

private def refreshed (secret now : ℕ) : List Op := [.present (some ⟨0, secret⟩) now, .commit 0]

private def afterwards (ops : List Op) : State :=
  (State.initial aliceRow [] aliceLogins alicePasswords []).run String.toLower ops

/-- The token of the sign-in is used again, and ends the session for good. -/
theorem tokens_kept_replay :
    let s := afterwards (signedIn ++ refreshed 3 60 ++ refreshed 3 90)
    s.spent = [⟨0, 3⟩] ∧ s.spent.Nodup ∧ s.db.revoked 0 ∧
      ∀ token now, token.session = 0 → s.db.readSession token now = .error invalidCredentials := by
  have gone : (afterwards (signedIn ++ refreshed 3 60 ++ refreshed 3 90)).db.revoked 0 :=
    ⟨⟨1, 6, some 3, 60 + idleTtl, some 90⟩, by decide +kernel, by decide⟩
  have kept := tokens_kept String.toLower aliceRow [] aliceLogins alicePasswords []
    (signedIn ++ refreshed 3 60 ++ refreshed 3 90) (by decide +kernel)
  exact ⟨by decide +kernel, kept.1, gone, (kept.2.2 0 gone).2.1⟩

/-- After two refreshes the token of the sign-in is refused, and the session stays open. -/
theorem older_token_ends_nothing :
    let s := afterwards (signedIn ++ refreshed 3 60 ++ refreshed 6 120)
    (⟨0, 3⟩ : RefreshToken) ∈ s.spent ∧ (s.db.readSession ⟨0, 3⟩ 180).toBool = true ∧
      (s.db.refresh (some ⟨0, 3⟩) 180).1 = .error invalidCredentials ∧
      (s.db.refresh (some ⟨0, 3⟩) 180).2.isOpen 0 = true ∧
      ((s.db.refresh (some ⟨0, 3⟩) 180).2.refresh (some ⟨0, 9⟩) 181).1.toBool = true := by
  decide +kernel

/-- Two refreshes that read the row before either writes both yield tokens. -/
example : (afterwards (signedIn ++ [.present (some ⟨0, 3⟩) 60, .present (some ⟨0, 3⟩) 60,
    .commit 0, .commit 0])).spent = [⟨0, 3⟩, ⟨0, 3⟩] := by decide +kernel

/-- A refresh that read the row before a revocation leaves an access token that is accepted. -/
example :
    let s := afterwards (signedIn ++
      [.present (some ⟨0, 3⟩) 60, .revoke 1 0 61, .commit 0])
    s.db.isOpen 0 = false ∧ (s.db.authenticate ⟨4, 5⟩ 62).toBool = true := by decide +kernel

end Samples

end Runs

end Sessions
end NodePlane
