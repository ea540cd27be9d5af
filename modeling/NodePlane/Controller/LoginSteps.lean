import NodePlane.Library.ListEdit
import NodePlane.Controller.OwnerUpdates
import NodePlane.Controller.Logins

/-! The calls that change logins, what happened to a login, and what holds of both after each
statement. -/
namespace NodePlane
namespace Logins
open Library
open Accounts (Denied of_check)

/-- What happened to a login. -/
inductive Event
  | took (account : ℕ) (key : String) (at' : ℕ)
  | gave (account : ℕ) (key : String) (at' : ℕ)
  /-- The account itself changed to another key. -/
  | changed (account : ℕ) (key : String) (at' : ℕ)
  /-- A merge handed a current login over. -/
  | moved (account : ℕ) (key : String) (main : ℕ)
  deriving DecidableEq, Repr

/-- The logins, the accounts in deletion, and what happened, newest first. -/
structure Db where
  rows : Rows
  deleting : List ℕ
  events : List Event

def Db.initial : Db := ⟨∅, [], []⟩

inductive Op
  /-- A new account of an invite or a registration. -/
  | join (account : ℕ) (login : String)
  | setOwn (account : ℕ) (login : String)
  /-- `AccountService.update`: an administrator changes a login at any time. -/
  | update (account : ℕ) (login : String)
  /-- `account_deletions.begin`, the only caller of `release`. -/
  | begin (account : ℕ)
  /-- An approved merge: `other`'s login moves to a `main` without one, and `other` is deleted. -/
  | merge (main other : ℕ)
  deriving DecidableEq, Repr

/-- What a claim does to the account's logins. -/
def claimEvents (t : Rows) (account : ℕ) (key : String) (kind : Kind) (now : ℕ) : List Event :=
  match currentRow t account with
  | none => [.took account key now]
  | some (previous, _) =>
    if previous = key then []
    else
      (if kind = .change then [.changed account key now] else []) ++
        [.took account key now, .gave account previous now]

def releaseEvents (t : Rows) (account now : ℕ) : List Event :=
  match currentRow t account with
  | none => []
  | some (key, _) => [.gave account key now]

/-- `begin`: the login is released, and the account stays inactive. -/
def Db.begin (db : Db) (account now : ℕ) : Db :=
  { db with
    rows := release db.rows account now
    deleting := account :: db.deleting
    events := releaseEvents db.rows account now ++ db.events }

/-- `_merge`: the login of `other` moves to `main`. -/
def Db.move (db : Db) (main other : ℕ) : Db :=
  match currentRow db.rows main, currentRow db.rows other with
  | none, some (key, _) =>
    { db with
      rows := db.rows.mapRows fun _ row =>
        if row.account = other ∧ row.releasedAt = none then { row with account := main } else row
      events := .moved other key main :: db.events }
  | _, _ => db

/-- The login `set_own` or `claim` leaves to the account. -/
def Db.claimed (db : Db) (account : ℕ) (login : String) (kind : Kind) (now : ℕ) (rows : Rows) : Db :=
  { db with
    rows := rows
    events := claimEvents db.rows account login.toLower kind now ++ db.events }

/-- One committed transaction at `now`; `lower` is `str.lower`. -/
def Db.step (lower : String → String) (db : Db) (now : ℕ) : Op → Except Denied Db
  | .join account login => do
    if account ∈ db.deleting ∨ db.rows.has (fun _ row => decide (row.account = account)) = true then
      throw ⟨"account_exists", 409⟩
    let rows ← claim db.rows account login .first now
    return db.claimed account login .first now rows
  | .setOwn account login => do
    if account ∈ db.deleting then
      throw ⟨"unauthorized", 401⟩
    let rows ← setOwn lower db.rows account login now
    return db.claimed account login (if current db.rows account = none then .first else .change) now
      rows
  | .update account login => do
    if account ∈ db.deleting then
      throw ⟨"account_deleting", 409⟩
    if current db.rows account = some login then
      return db
    let rows ← claim db.rows account login .admin now
    return db.claimed account login .admin now rows
  | .begin account => return db.begin account now
  | .merge main other => do
    if main = other ∨ main ∈ db.deleting ∨ other ∈ db.deleting then
      throw ⟨"resource_not_found", 404⟩
    return (db.move main other).begin other now

/-- A call at its time; one that is refused changes nothing. -/
def Db.after (lower : String → String) (db : Db) (call : ℕ × Op) : Db :=
  match db.step lower call.1 call.2 with
  | .ok next => next
  | .error _ => db

def Db.run (lower : String → String) (db : Db) (calls : List (ℕ × Op)) : Db :=
  calls.foldl (Db.after lower) db

/-- No administrator gives the account back a login it holds that records its own change of less
than thirty days ago. -/
def Db.careful (db : Db) : ℕ × Op → Bool
  | (now, .update account login) =>
    (db.rows.lookup login.toLower).all fun row =>
      !decide (row.account = account ∧ row.kind = .change ∧ row.releasedAt.isSome ∧
        now < row.claimedAt + changeEvery)
  | _ => true

def Careful (lower : String → String) : Db → List (ℕ × Op) → Prop
  | _, [] => True
  | db, call :: rest => db.careful call = true ∧ Careful lower (db.after lower call) rest

instance decidableCareful (lower : String → String) :
    (db : Db) → (calls : List (ℕ × Op)) → Decidable (Careful lower db calls)
  | _, [] => isTrue trivial
  | db, call :: rest =>
    have := decidableCareful lower (db.after lower call) rest
    inferInstanceAs (Decidable (_ ∧ _))

/-- The account gave the login up at that time; no merge has handed it over since. -/
def Gave (account : ℕ) (key : String) (at' : ℕ) : List Event → Prop
  | [] => False
  | .gave account' key' time :: earlier =>
    (account' = account ∧ key' = key ∧ time = at') ∨ Gave account key at' earlier
  | .moved account' key' _ :: earlier =>
    ¬ (account' = account ∧ key' = key) ∧ Gave account key at' earlier
  | _ :: earlier => Gave account key at' earlier

/-- A login given up is taken by another account thirty days later at the earliest. -/
def Held : List Event → Prop
  | [] => True
  | .took account key now :: earlier =>
    (∀ other at', Gave other key at' earlier → other ≠ account → at' + hold ≤ now) ∧ Held earlier
  | _ :: earlier => Held earlier

/-- Own changes of one account are thirty days apart. -/
def Spaced (events : List Event) : Prop :=
  events.Pairwise fun later earlier => ∀ account key key' now at',
    later = .changed account key now → earlier = .changed account key' at' → at' + changeEvery ≤ now

/-- The limits on logins. -/
structure Limits (db : Db) : Prop where
  /-- A key belongs to one account. -/
  owner : ∀ key key' row row', db.rows.lookup key = some row → db.rows.lookup key' = some row' →
    row.login.toLower = row'.login.toLower → row = row'
  /-- An account has at most one current login. -/
  single : ∀ key key' row row', db.rows.lookup key = some row → db.rows.lookup key' = some row' →
    row.releasedAt = none → row'.releasedAt = none → row.account = row'.account → key = key'
  held : Held db.events
  spaced : Spaced db.events


section Rows
variable {t u : Rows} {key : String} {row : Row} {account now : ℕ}

theorem currentRow_some (found : currentRow t account = some (key, row)) :
    t.lookup key = some row ∧ row.account = account ∧ row.releasedAt = none := by
  have holds := List.find?_some found
  exact ⟨Table.mem_rows_iff.mp (List.mem_of_find?_eq_some found), of_decide_eq_true holds⟩

theorem currentRow_none (none : currentRow t account = none) (found : t.lookup key = some row)
    (owns : row.account = account) : row.releasedAt ≠ Option.none := by
  intro current
  have missing := List.find?_eq_none.mp none (key, row) (Table.mem_rows_iff.mpr found)
  exact missing (decide_eq_true ⟨owns, current⟩)

/-- The wait of `changeAvailableAt`, over any length of it. -/
theorem delayed {at' every now : ℕ} (early : now < at' + every) :
    (do
      let at' ← some at'
      guard (now < at' + every)
      return at' + every : Option ℕ) = some (at' + every) := by
  simp [early]

/-- No change of the account's own is recent when it may change. -/
theorem change_available (free : changeAvailableAt t account now = none)
    (found : t.lookup key = some row) (owns : row.account = account) (kind : row.kind = .change) :
    row.claimedAt + changeEvery ≤ now := by
  have member : row.claimedAt ∈ (t.rows.filter fun entry =>
      decide (entry.2.account = account ∧ entry.2.kind = .change)).map fun entry =>
        entry.2.claimedAt := by
    refine List.mem_map.mpr ⟨(key, row), List.mem_filter.mpr ?_, rfl⟩
    exact ⟨Table.mem_rows_iff.mpr found, decide_eq_true ⟨owns, kind⟩⟩
  cases last : lastChange t account with
  | none => exact absurd member (List.eq_nil_iff_forall_not_mem.mp (List.max?_eq_none_iff.mp last) _)
  | some at' =>
    have most : row.claimedAt ≤ at' := (List.max?_eq_some_iff.mp last).2 _ member
    have passed : ¬ now < at' + changeEvery := by
      intro early
      rw [changeAvailableAt, last, delayed early] at free
      cases free
    omega

/-- What a claim leaves. -/
inductive Claimed (t u : Rows) (account : ℕ) (login : String) (kind : Kind) (now : ℕ) : Prop
  | first (none : currentRow t account = none)
      (rows : ∀ key, u.lookup key =
        if key = login.toLower then some ⟨login, account, kind, now, Option.none⟩ else t.lookup key)
  | same (old : Row) (held : currentRow t account = some (login.toLower, old))
      (rows : ∀ key, u.lookup key =
        if key = login.toLower then some { old with login := login } else t.lookup key)
  | moved (previous : String) (old : Row) (held : currentRow t account = some (previous, old))
      (apart : previous ≠ login.toLower)
      (rows : ∀ key, u.lookup key =
        if key = login.toLower then some ⟨login, account, kind, now, none⟩
        else if key = previous then some { old with releasedAt := some now }
        else t.lookup key)

theorem claim_ok {login : String} {kind : Kind} (ok : claim t account login kind now = .ok u) :
    pattern login = true ∧ available t login.toLower account now = true ∧
      Claimed t u account login kind now := by
  obtain ⟨key, checks, ok⟩ := bind_ok.mp ok
  unfold checked at checks
  obtain ⟨fits, checks⟩ := of_check checks
  obtain ⟨-, checks⟩ := of_check checks
  cases checks
  have ⟨free, ok⟩ := of_check ok
  refine ⟨by simpa using fits, by simpa using free, ?_⟩
  split at ok
  next none =>
    cases ok
    refine .first none fun key => ?_
    rw [Table.lookup_put]
    split
    · rfl
    · exact AList.lookup_erase_ne ‹_›
  next previous old held =>
    have found := (currentRow_some held).1
    split at ok
    next same =>
      subst same
      cases ok
      refine .same old held fun key => ?_
      rw [Table.lookup_alter, found]
      rfl
    next apart =>
      cases ok
      refine .moved previous old held apart fun key => ?_
      rw [Table.lookup_put]
      split
      · rfl
      · rw [AList.lookup_erase_ne ‹_›, Table.lookup_alter, found]
        rfl

end Rows

/-- What holds of logins and of what happened to them up to `now`. -/
structure Facts (db : Db) (now : ℕ) : Prop where
  keyed : ∀ key row, db.rows.lookup key = some row →
    pattern row.login = true ∧ key = row.login.toLower
  past : ∀ key row, db.rows.lookup key = some row → row.claimedAt ≤ now
  order : ∀ key row at', db.rows.lookup key = some row → row.releasedAt = some at' →
    row.claimedAt ≤ at'
  single : ∀ key key' row row', db.rows.lookup key = some row → db.rows.lookup key' = some row' →
    row.releasedAt = none → row'.releasedAt = none → row.account = row'.account → key = key'
  times : ∀ account key at', Gave account key at' db.events → at' ≤ now
  /-- A login given up stays with its account while it is held. -/
  given : ∀ account key at', Gave account key at' db.events → now < at' + hold →
    ∃ row, db.rows.lookup key = some row ∧ row.account = account ∧
      ∀ time, row.releasedAt = some time → at' ≤ time
  /-- A recent change of an account's own has its row. -/
  recorded : ∀ account key at', .changed account key at' ∈ db.events → now < at' + changeEvery →
    account ∈ db.deleting ∨ ∃ key row, db.rows.lookup key = some row ∧ row.account = account ∧
      row.kind = .change ∧ at' ≤ row.claimedAt
  held : Held db.events
  spaced : Spaced db.events

section Facts
variable {db : Db} {now account : ℕ} {key : String} {row : Row} {rows : Rows}

theorem Facts.later {later : ℕ} (facts : Facts db now) (le : now ≤ later) : Facts db later where
  keyed := facts.keyed
  past key row found := (facts.past key row found).trans le
  order := facts.order
  single := facts.single
  times account key at' gave := (facts.times account key at' gave).trans le
  given account key at' gave early := facts.given account key at' gave (by omega)
  recorded account key at' changed early := facts.recorded account key at' changed (by omega)
  held := facts.held
  spaced := facts.spaced

/-- An account's current login is given up. -/
theorem Facts.gave (facts : Facts db now) (found : db.rows.lookup key = some row)
    (looks : ∀ other, rows.lookup other =
      if other = key then some { row with releasedAt := some now } else db.rows.lookup other) :
    Facts { db with rows := rows, events := .gave row.account key now :: db.events } now := by
  -- Every row is an old one, the key's with its time of release.
  have old {other row'} (found' : rows.lookup other = some row') :
      (other = key ∧ row' = { row with releasedAt := some now }) ∨
        (other ≠ key ∧ db.rows.lookup other = some row') := by
    rw [looks] at found'
    split at found'
    next same => exact .inl ⟨same, (Option.some.inj found').symm⟩
    next apart => exact .inr ⟨apart, found'⟩
  constructor
  · intro other row' found'
    obtain ⟨rfl, rfl⟩ | ⟨-, found'⟩ := old found'
    · exact facts.keyed other row found
    · exact facts.keyed other row' found'
  · intro other row' found'
    obtain ⟨rfl, rfl⟩ | ⟨-, found'⟩ := old found'
    · exact facts.past other row found
    · exact facts.past other row' found'
  · intro other row' at' found' released
    obtain ⟨rfl, rfl⟩ | ⟨-, found'⟩ := old found'
    · cases released
      exact facts.past other row found
    · exact facts.order other row' at' found' released
  · intro other other' row₁ row₂ found₁ found₂ current₁ current₂ same
    obtain ⟨-, rfl⟩ | ⟨-, found₁⟩ := old found₁
    · cases current₁
    · obtain ⟨-, rfl⟩ | ⟨-, found₂⟩ := old found₂
      · cases current₂
      · exact facts.single other other' row₁ row₂ found₁ found₂ current₁ current₂ same
  · rintro account other at' (⟨-, -, rfl⟩ | gave)
    · exact le_rfl
    · exact facts.times account other at' gave
  · rintro account other at' (⟨rfl, rfl, rfl⟩ | gave) early
    · refine ⟨_, (looks key).trans (if_pos rfl), rfl, ?_⟩
      intro time released
      cases released
      exact le_rfl
    · obtain ⟨row', found', owns, since⟩ := facts.given account other at' gave early
      by_cases same : other = key
      · subst same
        cases found.symm.trans found'
        refine ⟨_, (looks other).trans (if_pos rfl), owns, ?_⟩
        intro time released
        cases released
        exact facts.times account other at' gave
      · exact ⟨row', (looks other).trans ((if_neg same).trans found'), owns, since⟩
  · intro account other at' changed early
    have changed : .changed account other at' ∈ db.events := by simpa using changed
    obtain gone | ⟨other', row', found', owns, kind, since⟩ :=
      facts.recorded account other at' changed early
    · exact .inl gone
    · by_cases same : other' = key
      · subst same
        cases found.symm.trans found'
        exact .inr ⟨other', _, (looks other').trans (if_pos rfl), owns, kind, since⟩
      · exact .inr ⟨other', row', (looks other').trans ((if_neg same).trans found'), owns, kind,
          since⟩
  · exact facts.held
  · refine List.pairwise_cons.mpr ⟨?_, facts.spaced⟩
    intro _ _ account key key' now at' new
    cases new

/-- A login that may be taken is the account's own or was held long enough. -/
theorem available_row (free : available rows key account now = true)
    (found : rows.lookup key = some row) :
    row.account = account ∨ ∃ at', row.releasedAt = some at' ∧ at' + hold ≤ now := by
  rw [available, found, Bool.or_eq_true] at free
  obtain owns | held := free
  · exact .inl (of_decide_eq_true owns)
  · cases released : row.releasedAt with
    | none => simp [released] at held
    | some at' =>
      rw [released, Option.any_some] at held
      exact .inr ⟨at', rfl, of_decide_eq_true held⟩

/-- An account without a current login takes one. -/
theorem Facts.took {login : String} {kind : Kind} (facts : Facts db now)
    (fits : pattern login = true) (free : available db.rows login.toLower account now = true)
    (none : ∀ key row, db.rows.lookup key = some row → row.account = account →
      row.releasedAt ≠ none)
    (keeps : kind ≠ .change → ∀ row, db.rows.lookup login.toLower = some row →
      row.account = account → row.kind = .change → row.claimedAt + changeEvery ≤ now)
    (looks : ∀ other, rows.lookup other =
      if other = login.toLower then some ⟨login, account, kind, now, Option.none⟩
      else db.rows.lookup other) :
    Facts { db with rows := rows, events := .took account login.toLower now :: db.events } now := by
  have old {other row'} (found' : rows.lookup other = some row') :
      (other = login.toLower ∧ row' = ⟨login, account, kind, now, Option.none⟩) ∨
        (other ≠ login.toLower ∧ db.rows.lookup other = some row') := by
    rw [looks] at found'
    split at found'
    next same => exact .inl ⟨same, (Option.some.inj found').symm⟩
    next apart => exact .inr ⟨apart, found'⟩
  have kept {other row'} (apart : other ≠ login.toLower) (found' : db.rows.lookup other = some row') :
      rows.lookup other = some row' := (looks other).trans ((if_neg apart).trans found')
  have taken := (looks login.toLower).trans (if_pos rfl)
  constructor
  · intro other row' found'
    obtain ⟨rfl, rfl⟩ | ⟨-, found'⟩ := old found'
    · exact ⟨fits, rfl⟩
    · exact facts.keyed other row' found'
  · intro other row' found'
    obtain ⟨rfl, rfl⟩ | ⟨-, found'⟩ := old found'
    · exact le_rfl
    · exact facts.past other row' found'
  · intro other row' at' found' released
    obtain ⟨rfl, rfl⟩ | ⟨-, found'⟩ := old found'
    · cases released
    · exact facts.order other row' at' found' released
  · intro other other' row₁ row₂ found₁ found₂ current₁ current₂ same
    obtain ⟨rfl, rfl⟩ | ⟨-, found₁⟩ := old found₁
    · obtain ⟨rfl, -⟩ | ⟨-, found₂⟩ := old found₂
      · rfl
      · exact absurd current₂ (none other' row₂ found₂ same.symm)
    · obtain ⟨-, rfl⟩ | ⟨-, found₂⟩ := old found₂
      · exact absurd current₁ (none other row₁ found₁ same)
      · exact facts.single other other' row₁ row₂ found₁ found₂ current₁ current₂ same
  · intro account other at' gave
    exact facts.times account other at' gave
  · intro account' other at' gave early
    obtain ⟨row', found', owns, since⟩ := facts.given account' other at' gave early
    by_cases same : other = login.toLower
    · subst same
      refine ⟨_, taken, ?_, nofun⟩
      obtain mine | ⟨time, released, passed⟩ := available_row free found'
      · exact mine.symm.trans owns
      · have := since time released
        omega
    · exact ⟨row', kept same found', owns, since⟩
  · intro account' other at' changed early
    have changed : .changed account' other at' ∈ db.events := by simpa using changed
    obtain gone | ⟨other', row', found', owns, change, since⟩ :=
      facts.recorded account' other at' changed early
    · exact .inl gone
    by_cases same : other' = login.toLower
    · subst same
      obtain mine | ⟨time, released, passed⟩ := available_row free found'
      · by_cases own : kind = .change
        · exact .inr ⟨_, _, taken, mine.symm.trans owns, own,
            since.trans (facts.past _ row' found')⟩
        · have := keeps own row' found' mine change
          omega
      · have := facts.order _ row' time found' released
        have : hold = changeEvery := rfl
        omega
    · exact .inr ⟨other', row', kept same found', owns, change, since⟩
  · refine ⟨?_, facts.held⟩
    intro other at' gave apart
    by_contra early
    obtain ⟨row', found', owns, since⟩ := facts.given other _ at' gave (Nat.lt_of_not_le early)
    obtain mine | ⟨time, released, passed⟩ := available_row free found'
    · exact apart (owns.symm.trans mine)
    · have := since time released
      omega
  · refine List.pairwise_cons.mpr ⟨?_, facts.spaced⟩
    intro _ _ account key key' now at' new
    cases new

/-- The taken login is a change of the account's own. -/
theorem Facts.changed (facts : Facts db now) (found : db.rows.lookup key = some row)
    (kind : row.kind = .change) (since : row.claimedAt = now)
    (apart : ∀ key at', .changed row.account key at' ∈ db.events → at' + changeEvery ≤ now) :
    Facts { db with events := .changed row.account key now :: db.events } now := by
  constructor
  · exact facts.keyed
  · exact facts.past
  · exact facts.order
  · exact facts.single
  · exact facts.times
  · exact facts.given
  · intro account other at' changed early
    rcases List.mem_cons.mp changed with new | changed
    · cases new
      exact .inr ⟨key, row, found, rfl, kind, since.ge⟩
    · exact facts.recorded account other at' changed early
  · exact facts.held
  · refine List.pairwise_cons.mpr ⟨?_, facts.spaced⟩
    intro event earlier account key key' now' at' new old
    cases new
    subst old
    exact apart key' at' earlier

/-- Only the case of a login changes. -/
theorem Facts.cased {login : String} (facts : Facts db now) (fits : pattern login = true)
    (found : db.rows.lookup login.toLower = some row)
    (looks : ∀ other, rows.lookup other =
      if other = login.toLower then some { row with login := login } else db.rows.lookup other) :
    Facts { db with rows := rows } now := by
  have old {other row'} (found' : rows.lookup other = some row') :
      ∃ row₀, db.rows.lookup other = some row₀ ∧ row'.account = row₀.account ∧
        row'.kind = row₀.kind ∧ row'.claimedAt = row₀.claimedAt ∧
        row'.releasedAt = row₀.releasedAt ∧ pattern row'.login = true ∧
        other = row'.login.toLower := by
    rw [looks] at found'
    split at found'
    next same =>
      subst same
      cases found'
      exact ⟨row, found, rfl, rfl, rfl, rfl, fits, rfl⟩
    next apart =>
      have named := facts.keyed other row' found'
      exact ⟨row', found', rfl, rfl, rfl, rfl, named.1, named.2⟩
  have kept {other row'} (found' : db.rows.lookup other = some row') :
      ∃ row₁, rows.lookup other = some row₁ ∧ row₁.account = row'.account ∧
        row₁.kind = row'.kind ∧ row₁.claimedAt = row'.claimedAt ∧
        row₁.releasedAt = row'.releasedAt := by
    by_cases same : other = login.toLower
    · subst same
      cases found.symm.trans found'
      exact ⟨_, (looks _).trans (if_pos rfl), rfl, rfl, rfl, rfl⟩
    · exact ⟨row', (looks other).trans ((if_neg same).trans found'), rfl, rfl, rfl, rfl⟩
  constructor
  · intro other row' found'
    obtain ⟨_, _, _, _, _, _, fits, named⟩ := old found'
    exact ⟨fits, named⟩
  · intro other row' found'
    obtain ⟨row₀, found₀, _, _, claimed, _⟩ := old found'
    exact claimed.le.trans (facts.past other row₀ found₀)
  · intro other row' at' found' released
    obtain ⟨row₀, found₀, _, _, claimed, at₀, _⟩ := old found'
    exact claimed.le.trans (facts.order other row₀ at' found₀ (at₀.symm.trans released))
  · intro other other' row₁ row₂ found₁ found₂ current₁ current₂ same
    obtain ⟨row₀, found₀, owner₀, _, _, at₀, _⟩ := old found₁
    obtain ⟨row₃, found₃, owner₃, _, _, at₃, _⟩ := old found₂
    exact facts.single other other' row₀ row₃ found₀ found₃ (at₀.symm.trans current₁)
      (at₃.symm.trans current₂) (owner₀.symm.trans (same.trans owner₃))
  · exact facts.times
  · intro account other at' gave early
    obtain ⟨row', found', owns, since⟩ := facts.given account other at' gave early
    obtain ⟨row₁, found₁, owner, _, _, released⟩ := kept found'
    refine ⟨row₁, found₁, owner.trans owns, ?_⟩
    intro time stands
    exact since time (released.symm.trans stands)
  · intro account other at' changed early
    obtain gone | ⟨other', row', found', owns, kind, since⟩ :=
      facts.recorded account other at' changed early
    · exact .inl gone
    · obtain ⟨row₁, found₁, owner, kind₁, claimed, _⟩ := kept found'
      exact .inr ⟨other', row₁, found₁, owner.trans owns, kind₁.trans kind, since.trans claimed.ge⟩
  · exact facts.held
  · exact facts.spaced

/-- A merge hands the current login of an account in deletion over. -/
theorem Facts.handed {main : ℕ} (facts : Facts db now)
    (found : db.rows.lookup key = some row) (gone : row.account ∈ db.deleting)
    (none : ∀ key row, db.rows.lookup key = some row → row.account = main →
      row.releasedAt ≠ none)
    (looks : ∀ other, rows.lookup other =
      if other = key then some { row with account := main } else db.rows.lookup other) :
    Facts { db with rows := rows, events := .moved row.account key main :: db.events } now := by
  have old {other row'} (found' : rows.lookup other = some row') :
      (other = key ∧ row' = { row with account := main }) ∨
        (other ≠ key ∧ db.rows.lookup other = some row') := by
    rw [looks] at found'
    split at found'
    next same => exact .inl ⟨same, (Option.some.inj found').symm⟩
    next apart => exact .inr ⟨apart, found'⟩
  constructor
  · intro other row' found'
    obtain ⟨rfl, rfl⟩ | ⟨-, found'⟩ := old found'
    · exact facts.keyed other row found
    · exact facts.keyed other row' found'
  · intro other row' found'
    obtain ⟨rfl, rfl⟩ | ⟨-, found'⟩ := old found'
    · exact facts.past other row found
    · exact facts.past other row' found'
  · intro other row' at' found' released
    obtain ⟨rfl, rfl⟩ | ⟨-, found'⟩ := old found'
    · exact facts.order other row at' found released
    · exact facts.order other row' at' found' released
  · intro other other' row₁ row₂ found₁ found₂ current₁ current₂ same
    obtain ⟨rfl, rfl⟩ | ⟨-, found₁⟩ := old found₁
    · obtain ⟨rfl, -⟩ | ⟨-, found₂⟩ := old found₂
      · rfl
      · exact absurd current₂ (none other' row₂ found₂ same.symm)
    · obtain ⟨-, rfl⟩ | ⟨-, found₂⟩ := old found₂
      · exact absurd current₁ (none other row₁ found₁ same)
      · exact facts.single other other' row₁ row₂ found₁ found₂ current₁ current₂ same
  · rintro account other at' ⟨-, gave⟩
    exact facts.times account other at' gave
  · rintro account other at' ⟨elsewhere, gave⟩ early
    obtain ⟨row', found', owns, since⟩ := facts.given account other at' gave early
    have apart : other ≠ key := by
      rintro rfl
      cases found.symm.trans found'
      exact elsewhere ⟨owns, rfl⟩
    exact ⟨row', (looks other).trans ((if_neg apart).trans found'), owns, since⟩
  · intro account other at' changed early
    have changed : .changed account other at' ∈ db.events := by simpa using changed
    obtain gone' | ⟨other', row', found', owns, kind, since⟩ :=
      facts.recorded account other at' changed early
    · exact .inl gone'
    · by_cases same : other' = key
      · subst same
        cases found.symm.trans found'
        exact .inl (owns ▸ gone)
      · exact .inr ⟨other', row', (looks other').trans ((if_neg same).trans found'), owns, kind,
          since⟩
  · exact facts.held
  · refine List.pairwise_cons.mpr ⟨?_, facts.spaced⟩
    intro _ _ account key key' now at' new
    cases new

theorem Facts.deleting (facts : Facts db now) (account : ℕ) :
    Facts { db with deleting := account :: db.deleting } now where
  keyed := facts.keyed
  past := facts.past
  order := facts.order
  single := facts.single
  times := facts.times
  given := facts.given
  recorded other key at' changed early :=
    (facts.recorded other key at' changed early).imp_left (List.mem_cons_of_mem account)
  held := facts.held
  spaced := facts.spaced

/-- What `release` leaves when the account has a current login. -/
theorem lookup_release (facts : Facts db now) (held : currentRow db.rows account = some (key, row))
    (other : String) : (release db.rows account now).lookup other =
      if other = key then some { row with releasedAt := some now } else db.rows.lookup other := by
  obtain ⟨found, owns, current⟩ := currentRow_some held
  rw [release, Table.lookup_mapRows]
  by_cases same : other = key
  · subst same
    rw [found, if_pos rfl, Option.map_some, if_pos ⟨owns, current⟩]
  · rw [if_neg same]
    cases found' : db.rows.lookup other with
    | none => rfl
    | some row' =>
      rw [Option.map_some, if_neg]
      rintro ⟨owns', current'⟩
      exact same (facts.single other key row' row found' found current' current
        (owns'.trans owns.symm))

theorem release_none (none : currentRow rows account = none) :
    release rows account now = rows := by
  apply AList.ext
  refine (List.map_congr_left ?_).trans (List.map_id rows.entries)
  intro entry listed
  have found : rows.lookup entry.1 = some entry.2 := Table.mem_entries_iff.mp listed
  dsimp only
  rw [if_neg]
  · rfl
  · rintro ⟨owns, current⟩
    exact currentRow_none none found owns current

/-- `begin` on an account whose deletion is recorded. -/
theorem Facts.released (facts : Facts db now) (account : ℕ) :
    Facts { db with
      rows := release db.rows account now
      events := releaseEvents db.rows account now ++ db.events } now := by
  unfold releaseEvents
  cases held : currentRow db.rows account with
  | none =>
    rw [release_none held]
    exact facts
  | some entry =>
    obtain ⟨key, row⟩ := entry
    obtain ⟨found, rfl, _⟩ := currentRow_some held
    exact facts.gave found (lookup_release facts held)

theorem lookup_released {other : String} {row : Row}
    (found : (release rows account now).lookup other = some row) :
    ∃ old, rows.lookup other = some old ∧ row.account = old.account ∧
      (old.account = account → row.releasedAt ≠ none) ∧
      (old.account ≠ account → row = old) ∧ (old.releasedAt ≠ none → row.releasedAt ≠ none) := by
  rw [release, Table.lookup_mapRows] at found
  obtain ⟨old, found', rfl⟩ := Option.map_eq_some_iff.mp found
  refine ⟨old, found', ?_, ?_, ?_, ?_⟩
  · split <;> rfl
  · intro owns
    split
    · exact nofun
    next other => exact fun none => other ⟨owns, none⟩
  · intro apart
    rw [if_neg fun both => apart both.1]
  · intro gone
    split
    · exact nofun
    · exact gone

end Facts

end Logins
end NodePlane
