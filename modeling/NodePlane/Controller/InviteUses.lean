import NodePlane.Controller.Invites
import NodePlane.Controller.OwnerUpdates
import NodePlane.Library.ListEdit

/-! What an accepted invite does: its template, with its creator's rights, and its use. -/
namespace NodePlane
namespace Invites
open Library
open Accounts (Denied of_check)
open Sessions (Tokens)

variable {db mid next : Db} {env : Env} {account profile id : ℕ} {row : Invite}

/-- Every profile's owner is an account. -/
theorem references_iff : db.references = true ↔
    ∀ id p, db.profiles.lookup id = some p → ∃ owner, db.accounts.lookup p.owner = some owner := by
  rw [Db.references, Bool.not_eq_true', Table.has_false_iff]
  simp only [Option.isNone_eq_false_iff, Option.isSome_iff_exists]

/-! The template -/

/-- The seconds of the days of a term that starts at `clock`. -/
def term (clock : ℕ) (days : Option ℕ) : Option ℕ :=
  days.map fun days => clock + days * 24 * 60 * 60

/-- What is applied of an invite with a VPN profile, with the rights its creator has in `db`. -/
structure Template (db next : Db) (env : Env) (id : ℕ) (row : Invite) (account profile : ℕ) :
    Prop where
  right : db.holds row.createdBy .profilesManage = true
  fresh : db.profiles.lookup profile = none
  applied : next.applied = db.applied ++ [id]
  plain : row.tariff = none → next.profiles = db.profiles.put profile ⟨account, none, 1⟩ ∧
    next.profileTariffs = db.profileTariffs ∧ next.policies = db.policies ∧
    next.operations = db.operations
  tariff : ∀ key, row.tariff = some key → ∃ tariff, db.tariffs.lookup key = some tariff ∧
    next.profiles = db.profiles.put profile ⟨account, term env.clock tariff.days, 2⟩ ∧
    next.profileTariffs = db.profileTariffs.put profile key ∧
    next.operations = db.operations ++ [⟨profile, row.createdBy⟩] ∧
    (tariff.access = none → next.policies = db.policies) ∧
    ∀ policy, tariff.access = some policy →
      db.holds row.createdBy .grantsManage = true ∧
        next.policies = db.policies.put profile policy

/-- Only what a template sets differs. -/
structure Frame (db next : Db) : Prop where
  base : next.toDb = db.toDb
  assignments : next.assignments = db.assignments
  identities : next.identities = db.identities
  tariffs : next.tariffs = db.tariffs
  invites : next.invites = db.invites
  accepted : next.accepted = db.accepted

theorem ensureProfile_ok
    (without : ∀ id p, db.profiles.lookup id = some p → p.owner ≠ account)
    (ok : db.ensureProfile account profile = .ok (id, next)) :
    id = profile ∧ db.profiles.lookup profile = none ∧
      next = { db with profiles := db.profiles.put profile ⟨account, none, 1⟩ } := by
  unfold Db.ensureProfile at ok
  split at ok
  · next existing owned found =>
    have owns := List.find?_some found
    exact absurd (by simpa using owns)
      (without _ _ (Table.mem_rows_iff.mp (List.mem_of_find?_eq_some found)))
  · obtain ⟨free, ok⟩ := of_check ok
    cases ok
    exact ⟨rfl, by simpa using free, rfl⟩

theorem assign_ok {key : ℕ} {p : Profile} {start applyAccess : Bool} {clock : ℕ}
    {expires : Option ℕ} {policy : Option Policy}
    (ok : db.assign profile key p start applyAccess clock = .ok (expires, policy, next)) :
    ∃ tariff, db.tariffs.lookup key = some tariff ∧
      expires = (if start then term clock tariff.days else p.expiresAt) ∧
      policy = (if applyAccess then tariff.access else none) ∧
      next = { db with profileTariffs := db.profileTariffs.put profile key } := by
  unfold Db.assign at ok
  cases found : db.tariffs.lookup key with
  | none =>
    rw [found] at ok
    cases ok
  | some tariff =>
    rw [found] at ok
    obtain ⟨_, ok⟩ := of_check ok
    obtain ⟨_, ok⟩ := of_check ok
    obtain ⟨_, ok⟩ := of_check ok
    cases ok
    exact ⟨tariff, rfl, rfl, rfl, rfl⟩

theorem tariffCommand_ok {actor revision key : ℕ} {start applyAccess : Bool}
    (ok : db.tariffCommand env actor profile revision key start applyAccess = .ok next) :
    ∃ p tariff, db.profiles.lookup profile = some p ∧ db.tariffs.lookup key = some tariff ∧
      (applyAccess = true → db.holds actor .grantsManage = true) ∧
      next.profiles = db.profiles.put profile
        ⟨p.owner, if start then term env.clock tariff.days else p.expiresAt, revision + 1⟩ ∧
      next.profileTariffs = db.profileTariffs.put profile key ∧
      next.operations = db.operations ++ [⟨profile, actor⟩] ∧
      next.policies = (match if applyAccess then tariff.access else none with
        | none => db.policies
        | some policy => db.policies.put profile policy) ∧
      next.applied = db.applied ∧ Frame db next := by
  unfold Db.tariffCommand at ok
  obtain ⟨_, ok⟩ := of_check ok
  cases closed : env.closed with
  | some denied =>
    rw [closed] at ok
    cases ok
  | none =>
    rw [closed] at ok
    obtain ⟨allowed, ok⟩ := of_check ok
    cases found : db.profiles.lookup profile with
    | none =>
      rw [found] at ok
      cases ok
    | some p =>
      rw [found] at ok
      obtain ⟨_, ok⟩ := of_check ok
      obtain ⟨_, ok⟩ := of_check ok
      obtain ⟨⟨expires, policy, assigned⟩, done, ok⟩ := bind_ok.mp ok
      obtain ⟨tariff, has, rfl, rfl, rfl⟩ := assign_ok done
      obtain ⟨_, ok⟩ := of_check ok
      cases ok
      refine ⟨p, tariff, rfl, has, fun asks => ?_, rfl, rfl, rfl, rfl, rfl,
        ⟨rfl, rfl, rfl, rfl, rfl, rfl⟩⟩
      by_contra lacks
      exact allowed ⟨asks, fun both => lacks both.1⟩

/-- An applied template, of an account without a profile. -/
theorem apply_ok (without : ∀ id p, db.profiles.lookup id = some p → p.owner ≠ account)
    (ok : db.apply env id row account = .ok next) :
    (row.vpn = false ∧ next = db) ∨
      (row.vpn = true ∧ Template db next env id row account env.profile ∧ Frame db next) := by
  unfold Db.apply at ok
  split at ok
  · next plain =>
    cases ok
    exact .inl ⟨plain, rfl⟩
  next vpn =>
  obtain ⟨right, ok⟩ := of_check ok
  obtain ⟨⟨made, ensured⟩, done, ok⟩ := bind_ok.mp ok
  obtain ⟨rfl, fresh, rfl⟩ := ensureProfile_ok without done
  refine .inr ⟨by simpa using vpn, ?_⟩
  have right : db.holds row.createdBy .profilesManage = true := by simpa using right
  cases named : row.tariff with
  | none =>
    rw [named] at ok
    cases ok
    refine ⟨⟨right, fresh, rfl, fun _ => ⟨rfl, rfl, rfl, rfl⟩, fun key has => ?_⟩,
      ⟨rfl, rfl, rfl, rfl, rfl, rfl⟩⟩
    rw [named] at has
    cases has
  | some key =>
    rw [named] at ok
    dsimp only at ok
    cases found : db.tariffs.lookup key with
    | none =>
      rw [found] at ok
      cases ok
    | some tariff =>
      rw [found] at ok
      dsimp only at ok
      rw [Table.lookup_put_self] at ok
      obtain ⟨p, tariff', held, found', asks, profiles, tariffs, operations, policies, applied,
        frame⟩ := tariffCommand_ok ok
      dsimp only at held found' profiles tariffs operations policies applied
      rw [Table.lookup_put_self] at held
      cases held
      rw [found] at found'
      cases found'
      refine ⟨⟨right, fresh, applied, fun none => absurd (named.symm.trans none) (by simp), ?_⟩,
        ⟨frame.base, frame.assignments, frame.identities, frame.tariffs, frame.invites,
          frame.accepted⟩⟩
      intro key' has
      rw [named] at has
      cases has
      refine ⟨tariff, found, ?_, tariffs, operations, fun none => ?_, fun policy some => ⟨?_, ?_⟩⟩
      · rw [profiles]
        unfold Table.put
        rw [AList.insert_insert]
        cases tariff.days <;> rfl
      · rw [policies, none]
        rfl
      · exact asks (by rw [some]; rfl)
      · rw [policies, some]
        rfl

/-! Acceptances -/

/-- Nothing of a template differs. -/
structure Plain (db next : Db) : Prop where
  profiles : next.profiles = db.profiles
  profileTariffs : next.profileTariffs = db.profileTariffs
  policies : next.policies = db.policies
  operations : next.operations = db.operations
  applied : next.applied = db.applied

theorem Plain.refl (db : Db) : Plain db db := ⟨rfl, rfl, rfl, rfl, rfl⟩

theorem Plain.trans (first : Plain db mid) (second : Plain mid next) : Plain db next where
  profiles := second.profiles.trans first.profiles
  profileTariffs := second.profileTariffs.trans first.profileTariffs
  policies := second.policies.trans first.policies
  operations := second.operations.trans first.operations
  applied := second.applied.trans first.applied

/-- A template applied between states that agree outside it. -/
theorem Template.around {before after : Db} (template : Template mid after env id row account profile)
    (right : ∀ permission, mid.holds row.createdBy permission = true →
      before.holds row.createdBy permission = true)
    (tariffs : mid.tariffs = before.tariffs) (first : Plain before mid) (second : Plain after next) :
    Template before next env id row account profile where
  right := right _ template.right
  fresh := by rw [← first.profiles]; exact template.fresh
  applied := by rw [second.applied, template.applied, first.applied]
  plain none := by
    obtain ⟨profiles, profileTariffs, policies, operations⟩ := template.plain none
    rw [second.profiles, second.profileTariffs, second.policies, second.operations, profiles,
      profileTariffs, policies, operations, first.profiles, first.profileTariffs, first.policies,
      first.operations]
    exact ⟨rfl, rfl, rfl, rfl⟩
  tariff key named := by
    obtain ⟨tariff, found, profiles, profileTariffs, operations, kept, set⟩ :=
      template.tariff key named
    refine ⟨tariff, by rw [← tariffs]; exact found, ?_, ?_, ?_, fun none => ?_,
      fun policy some => ?_⟩
    · rw [second.profiles, profiles, first.profiles]
    · rw [second.profileTariffs, profileTariffs, first.profileTariffs]
    · rw [second.operations, operations, first.operations]
    · rw [second.policies, kept none, first.policies]
    · obtain ⟨grants, policies⟩ := set policy some
      exact ⟨right _ grants, by rw [second.policies, policies, first.policies]⟩

/-- The template's profile is the only one of its account. -/
theorem Template.only (template : Template db next env id row account profile)
    (without : ∀ id p, db.profiles.lookup id = some p → p.owner ≠ account) :
    ∀ other p, next.profiles.lookup other = some p → p.owner = account → other = profile := by
  have put : ∃ made, next.profiles = db.profiles.put profile made := by
    cases named : row.tariff with
    | none => exact ⟨_, (template.plain named).1⟩
    | some key =>
      obtain ⟨_, _, profiles, _⟩ := template.tariff key named
      exact ⟨_, profiles⟩
  obtain ⟨made, profiles⟩ := put
  intro other p found owned
  rw [profiles, Table.lookup_put] at found
  split at found
  · next here => exact here
  · exact absurd owned (without other p found)

/-- An account that was just created gives no right. -/
theorem holds_newAccount {who : ℕ} {permission : Permission}
    (accounts : mid.accounts = db.accounts.put account ⟨.member, .approved, 1⟩)
    (assignments : mid.assignments = db.assignments)
    (held : mid.holds who permission = true) : db.holds who permission = true := by
  unfold Db.holds at held ⊢
  rw [accounts, Table.lookup_put] at held
  split at held
  · rw [Option.any_some, Bool.and_eq_true, List.any_eq_true] at held
    obtain ⟨_, role, _, has⟩ := held
    simp [Db.roles, Accounts.effectiveRoles] at has
  · have roles : ∀ id row, mid.roles id row = db.roles id row := by
      intro id row
      unfold Db.roles
      rw [assignments]
    simpa only [roles] using held

theorem newAccount_ok (ok : db.newAccount account = .ok next) :
    db.accounts.lookup account = none ∧
      next = { db with accounts := db.accounts.put account ⟨.member, .approved, 1⟩ } := by
  unfold Db.newAccount at ok
  obtain ⟨free, ok⟩ := of_check ok
  cases ok
  exact ⟨by simpa using free, rfl⟩

theorem find_ok {token : Option ℕ} {source : Option String} {now : ℕ}
    (ok : db.find token source now = .ok (some (id, row))) :
    db.invites.lookup id = some row ∧ row.status now = .active := by
  unfold Db.find at ok
  obtain ⟨_, ok⟩ := of_check ok
  have ok := Except.ok.inj ok
  split at ok
  · cases ok
  · next id' row' found =>
    split at ok
    · next active =>
      cases ok
      exact ⟨Table.mem_rows_iff.mp (List.mem_of_find?_eq_some found), active⟩
    · cases ok

theorem revokeAll_accounts (base : Sessions.Db) (account : ℕ) (keep : Option ℕ) (now : ℕ) :
    (base.revokeAll account keep now).accounts = base.accounts := by
  unfold Sessions.Db.revokeAll
  generalize base.openSessions account = ids
  induction ids generalizing base with
  | nil => rfl
  | cons id ids ih =>
    rw [List.foldl_cons, ih]
    split <;> rfl

theorem setPassword_accounts {lower : String → String} {base after : Sessions.Db}
    {password current : Option String} {keep : Option ℕ} {now : ℕ}
    (ok : base.setPassword lower account password current keep now = .ok after) :
    after.accounts = base.accounts := by
  unfold Sessions.Db.setPassword at ok
  obtain ⟨password, _, ok⟩ := bind_ok.mp ok
  obtain ⟨_, ok⟩ := of_check ok
  cases ok
  split
  · exact revokeAll_accounts _ account keep now
  · rfl

theorem replacePassword_ok {lower : String → String} {password : Option String} {now : ℕ}
    (ok : db.replacePassword lower account password now = .ok next) :
    next.accounts = db.accounts ∧ next = { db with toDb := next.toDb } := by
  unfold Db.replacePassword at ok
  cases password with
  | none =>
    cases ok
    exact ⟨rfl, rfl⟩
  | some password =>
    obtain ⟨_, _, ok⟩ := bind_ok.mp ok
    obtain ⟨base, done, ok⟩ := bind_ok.mp ok
    cases ok
    refine ⟨?_, rfl⟩
    dsimp only
    rw [revokeAll_accounts, setPassword_accounts done]

/-- The use of an invite that was found active. -/
theorem use_ok {now : ℕ} (found : db.invites.lookup id = some row)
    (ok : db.use id account now = .ok next) :
    next = { db with
      invites := db.invites.put id { row with usedAt := some now, usedAccount := some account }
      accepted := db.accepted ++ [⟨id, account, now⟩] } := by
  unfold Db.use at ok
  rw [found] at ok
  dsimp only at ok
  split at ok
  · cases ok
    rfl
  · cases ok

/-- What marks the invite as used, with the account's password and session. -/
structure Marks (db next : Db) (id : ℕ) (row : Invite) (account now : ℕ) : Prop where
  plain : Plain db next
  accounts : next.accounts = db.accounts
  invites : next.invites =
    db.invites.put id { row with usedAt := some now, usedAccount := some account }
  accepted : next.accepted = db.accepted ++ [⟨id, account, now⟩]

theorem use_marks {now : ℕ} (found : db.invites.lookup id = some row)
    (ok : db.use id account now = .ok next) : Marks db next id row account now := by
  rw [use_ok found ok]
  exact ⟨⟨rfl, rfl, rfl, rfl, rfl⟩, rfl, rfl, rfl⟩

/-- A password before the use, and a session after it. -/
theorem signed_marks {lower : String → String} {password : Option String} {now : ℕ}
    {rebased marked : Db} {base : Sessions.Db} (found : db.invites.lookup id = some row)
    (replaced : db.replacePassword lower account password now = .ok rebased)
    (used : rebased.use id account now = .ok marked) (accounts : base.accounts = marked.accounts) :
    Marks db { marked with toDb := base } id row account now := by
  obtain ⟨people, same⟩ := replacePassword_ok replaced
  have still : rebased.invites = db.invites := by rw [same]
  obtain ⟨plain, accounts', invites, accepted⟩ :=
    use_marks (by rw [still]; exact found) used
  rw [same] at plain invites accepted
  exact ⟨⟨plain.profiles, plain.profileTariffs, plain.policies, plain.operations, plain.applied⟩,
    accounts.trans (accounts'.trans people), invites, accepted⟩

/-- What an acceptance that succeeds does. -/
structure Uses (db next : Db) (env : Env) (id : ℕ) (row : Invite) (account : ℕ) : Prop where
  found : db.invites.lookup id = some row
  active : row.status env.now = .active
  invites : next.invites =
    db.invites.put id { row with usedAt := some env.now, usedAccount := some account }
  accepted : next.accepted = db.accepted ++ [⟨id, account, env.now⟩]
  accounts : ∀ owner r, db.accounts.lookup owner = some r →
    ∃ later, next.accounts.lookup owner = some later
  present : ∃ r, next.accounts.lookup account = some r
  new : row.kind = .new → db.accounts.lookup account = none
  named : ∀ key, row.kind = .account key → account = key
  plain : row.vpn = false ∨ row.kind ≠ .new → Plain db next
  template : row.kind = .new → row.vpn = true → ∃ profile,
    Template db next env id row account profile ∧
      ∀ other p, next.profiles.lookup other = some p → p.owner = account → other = profile

/-- The template of a new account, between the account's creation and the invite's use. -/
theorem uses_new (sound : db.references = true) (found : db.invites.lookup id = some row)
    (active : row.status env.now = .active) (kind : row.kind = .new) {after : Db}
    (free : db.accounts.lookup account = none)
    (accounts : mid.accounts = db.accounts.put account ⟨.member, .approved, 1⟩)
    (assignments : mid.assignments = db.assignments) (tariffs : mid.tariffs = db.tariffs)
    (first : Plain db mid) (invites : mid.invites = db.invites)
    (accepted : mid.accepted = db.accepted)
    (applied : mid.apply env id row account = .ok after)
    (marks : after.invites.lookup id = some row → Marks after next id row account env.now) :
    Uses db next env id row account := by
  have without : ∀ id p, db.profiles.lookup id = some p → p.owner ≠ account := by
    rintro key p held rfl
    obtain ⟨owner, has⟩ := references_iff.mp sound key p held
    rw [free] at has
    cases has
  have without' : ∀ id p, mid.profiles.lookup id = some p → p.owner ≠ account := by
    rw [first.profiles]
    exact without
  have result := apply_ok without' applied
  have frame : after.toDb = mid.toDb ∧ after.invites = mid.invites ∧
      after.accepted = mid.accepted := by
    rcases result with ⟨_, rfl⟩ | ⟨_, _, frame⟩
    · exact ⟨rfl, rfl, rfl⟩
    · exact ⟨frame.base, frame.invites, frame.accepted⟩
  obtain ⟨base, same, same'⟩ := frame
  obtain ⟨second, accounts', invites', accepted'⟩ := marks (by rw [same, invites]; exact found)
  have people : next.accounts = db.accounts.put account ⟨.member, .approved, 1⟩ := by
    rw [accounts', base, accounts]
  constructor
  · exact found
  · exact active
  · rw [invites', same, invites]
  · rw [accepted', same', accepted]
  · intro owner r has
    rw [people, Table.lookup_put]
    split
    · exact ⟨_, rfl⟩
    · exact ⟨r, has⟩
  · exact ⟨_, by rw [people, Table.lookup_put_self]⟩
  · exact fun _ => free
  · intro key other
    rw [kind] at other
    cases other
  · intro unapplied
    rcases result with ⟨_, rfl⟩ | ⟨vpn, _⟩
    · exact first.trans second
    · rcases unapplied with none | other
      · rw [none] at vpn
        cases vpn
      · exact absurd kind other
  · intro _ vpn
    rcases result with ⟨none, _⟩ | ⟨_, template, _⟩
    · rw [none] at vpn
      cases vpn
    · have whole := template.around (fun permission held => holds_newAccount accounts assignments held)
        tariffs first second
      exact ⟨env.profile, whole, whole.only without⟩

section Lower
variable {lower : String → String} {token : Option ℕ} {login password source : Option String}

theorem acceptNew_ok (ok : db.acceptNew env id row login = .ok (account, next)) :
    ∃ mid, account = env.account ∧ db.accounts.lookup account = none ∧
      mid.accounts = db.accounts.put account ⟨.member, .approved, 1⟩ ∧
      mid.assignments = db.assignments ∧ mid.tariffs = db.tariffs ∧ Plain db mid ∧
      mid.invites = db.invites ∧ mid.accepted = db.accepted ∧
      mid.apply env id row account = .ok next := by
  unfold Db.acceptNew at ok
  cases wanted : login.filter (fun login => !login.isEmpty) with
  | none =>
    rw [wanted] at ok
    cases ok
  | some login =>
    rw [wanted] at ok
    obtain ⟨_, _, ok⟩ := bind_ok.mp ok
    obtain ⟨made, created, ok⟩ := bind_ok.mp ok
    obtain ⟨free, rfl⟩ := newAccount_ok created
    obtain ⟨logins, _, ok⟩ := bind_ok.mp ok
    obtain ⟨after, applied, ok⟩ := bind_ok.mp ok
    cases ok
    refine ⟨_, rfl, free, ?_, ?_, ?_, ?_, ?_, ?_, applied⟩
    · rfl
    · rfl
    · rfl
    · exact ⟨rfl, rfl, rfl, rfl, rfl⟩
    · rfl
    · rfl

theorem acceptAccount_ok {named : ℕ}
    (ok : db.acceptAccount lower env named login = .ok (account, next)) :
    account = named ∧ (∃ r, db.accounts.lookup account = some r) ∧
      next.accounts = db.accounts ∧ Plain db next ∧ next.invites = db.invites ∧
      next.accepted = db.accepted := by
  unfold Db.acceptAccount at ok
  obtain ⟨active, ok⟩ := of_check ok
  have present : ∃ r, db.accounts.lookup named = some r := by
    have active : db.active named = true := by simpa using active
    unfold Sessions.Db.active at active
    rw [Bool.and_eq_true, Option.any_eq_true] at active
    obtain ⟨⟨r, found, _⟩, _⟩ := active
    exact ⟨r, found⟩
  cases has : Logins.current db.logins named with
  | some _ =>
    rw [has] at ok
    cases ok
    exact ⟨rfl, present, rfl, Plain.refl db, rfl, rfl⟩
  | none =>
    rw [has] at ok
    dsimp only at ok
    cases wanted : login.filter (fun login => !login.isEmpty) with
    | none =>
      rw [wanted] at ok
      cases ok
    | some login =>
      rw [wanted] at ok
      obtain ⟨logins, _, ok⟩ := bind_ok.mp ok
      cases ok
      exact ⟨rfl, present, rfl, ⟨rfl, rfl, rfl, rfl, rfl⟩, rfl, rfl⟩

theorem accepting_ok (sound : db.references = true) {tokens : Tokens}
    (ok : db.accepting lower env token login password source =
      .ok (some (account, tokens, next))) :
    ∃ id row, Uses db next env id row account := by
  unfold Db.accepting at ok
  obtain ⟨hit, searched, ok⟩ := bind_ok.mp ok
  cases hit with
  | none => cases ok
  | some entry =>
    obtain ⟨id, row⟩ := entry
    obtain ⟨found, active⟩ := find_ok searched
    obtain ⟨⟨who, mid⟩, opened, ok⟩ := bind_ok.mp ok
    obtain ⟨protected', replaced, ok⟩ := bind_ok.mp ok
    obtain ⟨marked, used, ok⟩ := bind_ok.mp ok
    cases ok
    refine ⟨id, row, ?_⟩
    unfold Db.acceptKind at opened
    cases kind : row.kind with
    | new =>
      rw [kind] at opened
      obtain ⟨begun, rfl, free, accounts, assignments, tariffs, first, invites, accepted, applied⟩ :=
        acceptNew_ok opened
      exact uses_new sound found active kind free accounts assignments tariffs first invites accepted
        applied fun still => signed_marks still replaced used rfl
    | account named =>
      rw [kind] at opened
      obtain ⟨rfl, ⟨r, present⟩, accounts, plain, invites, accepted⟩ := acceptAccount_ok opened
      have marks : Marks mid { marked with toDb := (marked.toDb.openSession account env.now).2 } id row
          account env.now := signed_marks (by rw [invites]; exact found) replaced used rfl
      have people := marks.accounts.trans accounts
      constructor
      · exact found
      · exact active
      · rw [marks.invites, invites]
      · rw [marks.accepted, accepted]
      · intro owner r has
        exact ⟨r, (congrArg (AList.lookup owner) people).trans has⟩
      · exact ⟨r, (congrArg (AList.lookup account) people).trans present⟩
      · intro new
        rw [kind] at new
        cases new
      · intro key other
        rw [kind] at other
        exact Kind.account.inj other
      · exact fun _ => plain.trans marks.plain
      · intro new
        rw [kind] at new
        cases new

theorem acceptingTelegram_ok (sound : db.references = true) {subject : String}
    (ok : db.acceptingTelegram env token subject login source = .ok (some (account, next))) :
    ∃ id row, Uses db next env id row account := by
  unfold Db.acceptingTelegram at ok
  obtain ⟨hit, searched, ok⟩ := bind_ok.mp ok
  cases hit with
  | none => cases ok
  | some entry =>
    obtain ⟨id, row⟩ := entry
    obtain ⟨found, active⟩ := find_ok searched
    obtain ⟨new, ok⟩ := of_check ok
    obtain ⟨_, ok⟩ := of_check ok
    obtain ⟨made, created, ok⟩ := bind_ok.mp ok
    obtain ⟨free, rfl⟩ := newAccount_ok created
    obtain ⟨mid, named, ok⟩ := bind_ok.mp ok
    obtain ⟨after, applied, ok⟩ := bind_ok.mp ok
    obtain ⟨marked, used, ok⟩ := bind_ok.mp ok
    cases ok
    have claimed : mid.accounts = db.accounts.put env.account ⟨.member, .approved, 1⟩ ∧
        mid.assignments = db.assignments ∧ mid.tariffs = db.tariffs ∧ Plain db mid ∧
        mid.invites = db.invites ∧ mid.accepted = db.accepted := by
      unfold Db.firstLogin at named
      split at named
      · cases named
        exact ⟨rfl, rfl, rfl, ⟨rfl, rfl, rfl, rfl, rfl⟩, rfl, rfl⟩
      · obtain ⟨_, _, named⟩ := bind_ok.mp named
        obtain ⟨_, _, named⟩ := bind_ok.mp named
        cases named
        exact ⟨rfl, rfl, rfl, ⟨rfl, rfl, rfl, rfl, rfl⟩, rfl, rfl⟩
    obtain ⟨accounts, assignments, tariffs, first, invites, accepted⟩ := claimed
    exact ⟨id, row, uses_new sound found active (not_not.mp new) free accounts assignments tariffs
      first invites accepted applied fun still => use_marks still used⟩

end Lower

end Invites
end NodePlane
