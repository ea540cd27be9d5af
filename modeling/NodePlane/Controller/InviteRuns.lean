import NodePlane.Controller.InviteUses

/-! Runs with invites: each is used once at most, and its template applied once with it. -/
namespace NodePlane
namespace Invites
open Library
open Accounts (Denied of_check)

attribute [local simp] Db.step
variable {db next : Db} {id : ℕ} {row : Invite} {lower : String → String}

/-- The acceptance's invite has a VPN profile in its template. -/
def Db.templated (db : Db) (accepted : Acceptance) : Bool :=
  (db.invites.lookup accepted.invite).any fun row => row.vpn

/-- What holds in every reachable state. -/
structure Sound (db : Db) : Prop where
  references : db.references = true
  kinds : ∀ id row, db.invites.lookup id = some row → row.vpn = true → row.kind = .new
  used : ∀ accepted ∈ db.accepted, ∃ row, db.invites.lookup accepted.invite = some row ∧
    row.usedAt = some accepted.at' ∧ row.usedAccount = some accepted.account
  once : (db.accepted.map Acceptance.invite).Nodup
  applied : db.applied = (db.accepted.filter db.templated).map Acceptance.invite

/-- The invite was used or revoked. -/
def Invite.ended (row : Invite) : Prop := row.usedAt ≠ none ∨ row.revokedAt ≠ none

/-- No invite is lost, and one that ended stays as it is. -/
structure Kept (db next : Db) : Prop where
  vpn : ∀ id row, db.invites.lookup id = some row →
    ∃ later, next.invites.lookup id = some later ∧ later.vpn = row.vpn
  ended : ∀ id row, db.invites.lookup id = some row → row.ended → next.invites.lookup id = some row

theorem Kept.of_same (same : next.invites = db.invites) : Kept db next where
  vpn id row found := ⟨row, by rw [same]; exact found, rfl⟩
  ended id row found _ := by rw [same]; exact found

theorem Kept.trans {mid : Db} (first : Kept db mid) (second : Kept mid next) : Kept db next where
  vpn id row found := by
    obtain ⟨later, found, same⟩ := first.vpn id row found
    obtain ⟨last, found, same'⟩ := second.vpn id later found
    exact ⟨last, found, same'.trans same⟩
  ended id row found finished := second.ended id row (first.ended id row found finished) finished

theorem active_open {now : ℕ} (active : row.status now = .active) :
    row.usedAt = none ∧ row.revokedAt = none ∧ now < row.expiresAt := by
  unfold Invite.status at active
  split at active
  · cases active
  next open' =>
  split at active
  · cases active
  next unused =>
  split at active
  · cases active
  next early => exact ⟨not_not.mp unused, not_not.mp open', Nat.lt_of_not_le early⟩

theorem active_not_ended {now : ℕ} (active : row.status now = .active) : ¬ row.ended := by
  obtain ⟨unused, open', _⟩ := active_open active
  rintro (used | revoked)
  · exact used unused
  · exact revoked open'

namespace Sound

theorem initial : Sound .initial where
  references := rfl
  kinds id row found := by cases found
  used accepted listed := nomatch listed
  once := List.nodup_nil
  applied := rfl

/-- Steps without an acceptance. -/
theorem of_kept (sound : Sound db) (kept : Kept db next) (references : next.references = true)
    (kinds : ∀ id row, next.invites.lookup id = some row → row.vpn = true → row.kind = .new)
    (accepted : next.accepted = db.accepted) (applied : next.applied = db.applied) :
    Sound next where
  references := references
  kinds := kinds
  used acceptance listed := by
    rw [accepted] at listed
    obtain ⟨row, found, used, who⟩ := sound.used acceptance listed
    exact ⟨row, kept.ended _ row found (.inl (by rw [used]; simp)), used, who⟩
  once := by
    rw [accepted]
    exact sound.once
  applied := by
    rw [applied, accepted, sound.applied]
    congr 1
    apply List.filter_congr
    intro acceptance listed
    obtain ⟨row, found, used, _⟩ := sound.used acceptance listed
    unfold Db.templated
    rw [found, kept.ended _ row found (.inl (by rw [used]; simp))]

theorem of_same (sound : Sound db) (references : next.references = true)
    (invites : next.invites = db.invites) (accepted : next.accepted = db.accepted)
    (applied : next.applied = db.applied) : Sound next :=
  sound.of_kept (Kept.of_same invites) references (by rw [invites]; exact sound.kinds) accepted
    applied

end Sound

/-! Steps -/

theorem create_ok {actor : Actor} {creation : Creation} {now : ℕ}
    (ok : db.create actor creation now = .ok next) :
    ∃ row, db.invites.lookup creation.id = none ∧ (row.vpn = true → row.kind = .new) ∧
      next = { db with invites := db.invites.put creation.id row } := by
  unfold Db.create at ok
  obtain ⟨_, checked, ok⟩ := bind_ok.mp ok
  obtain ⟨_, _, ok⟩ := bind_ok.mp ok
  obtain ⟨_, _, ok⟩ := bind_ok.mp ok
  obtain ⟨_, ok⟩ := of_check ok
  obtain ⟨free, ok⟩ := of_check ok
  cases ok
  refine ⟨_, ?_, ?_, rfl⟩
  · cases found : db.invites.lookup creation.id with
    | none => rfl
    | some row =>
      have taken : (db.invites.has fun id row =>
          decide (id = creation.id ∨ row.token = creation.token)) = true :=
        Table.has_iff.mpr ⟨creation.id, row, found, by simp⟩
      exact absurd taken free
  · intro vpn
    have vpn : creation.vpn = true := vpn
    unfold Creation.checked at checked
    obtain ⟨_, checked⟩ := of_check checked
    obtain ⟨_, checked⟩ := of_check checked
    obtain ⟨_, checked⟩ := of_check checked
    obtain ⟨apart, _⟩ := of_check checked
    cases named : creation.account with
    | none => simp
    | some account => exact absurd ⟨by rw [named]; simp, .inl vpn⟩ apart

theorem revokeInvite_ok {actor : Actor} {now : ℕ} (ok : db.revokeInvite actor id now = .ok next) :
    next = db ∨ ∃ row, db.invites.lookup id = some row ∧ row.status now = .active ∧
      next = { db with
        invites := db.invites.alter id fun row => { row with revokedAt := some now } } := by
  unfold Db.revokeInvite at ok
  obtain ⟨_, ok⟩ := of_check ok
  split at ok
  · cases ok
  next row found =>
  split at ok
  · next active =>
    cases ok
    exact .inr ⟨row, found, active, rfl⟩
  · cases ok
    exact .inl rfl

/-- A rewritten invite that had not ended. -/
theorem kept_put {later : Invite} (found : db.invites.lookup id = some row) (going : ¬ row.ended)
    (vpn : later.vpn = row.vpn) (invites : next.invites = db.invites.put id later) :
    Kept db next where
  vpn other old has := by
    rw [invites, Table.lookup_put]
    split
    · next here =>
      subst here
      rw [found] at has
      cases has
      exact ⟨later, rfl, vpn⟩
    · exact ⟨old, has, rfl⟩
  ended other old has finished := by
    rw [invites, Table.lookup_put]
    split
    · next here =>
      subst here
      rw [found] at has
      cases has
      exact absurd finished going
    · exact has

theorem Sound.create (sound : Sound db) {actor : Actor} {creation : Creation} {now : ℕ}
    (ok : db.create actor creation now = .ok next) : Sound next ∧ Kept db next := by
  obtain ⟨row, free, kind, rfl⟩ := create_ok ok
  have other : ∀ {id old}, db.invites.lookup id = some old → id ≠ creation.id := by
    rintro id old found rfl
    rw [free] at found
    cases found
  have kept : Kept db { db with invites := db.invites.put creation.id row } := by
    constructor
    · intro id old found
      exact ⟨old, by rw [Table.lookup_put_ne _ (other found), found], rfl⟩
    · intro id old found _
      rw [Table.lookup_put_ne _ (other found), found]
  refine ⟨sound.of_kept kept sound.references ?_ rfl rfl, kept⟩
  intro id old found
  rw [Table.lookup_put] at found
  split at found
  · cases found
    exact kind
  · exact sound.kinds id old found

theorem Sound.revoke (sound : Sound db) {actor : Actor} {now : ℕ}
    (ok : db.revokeInvite actor id now = .ok next) : Sound next ∧ Kept db next := by
  obtain rfl | ⟨row, found, active, rfl⟩ := revokeInvite_ok ok
  · exact ⟨sound, Kept.of_same rfl⟩
  · have put : db.invites.alter id (fun row => { row with revokedAt := some now }) =
        db.invites.put id { row with revokedAt := some now } := by
      unfold Table.alter
      rw [found]
    have kept : Kept db { db with invites := db.invites.alter id fun row =>
          { row with revokedAt := some now } } := by
      refine kept_put found (active_not_ended active) ?_ put
      rfl
    refine ⟨sound.of_kept kept sound.references ?_ rfl rfl, kept⟩
    intro other old has
    dsimp only at has
    rw [put, Table.lookup_put] at has
    split at has
    · cases has
      exact sound.kinds id row found
    · exact sound.kinds other old has

/-- An acceptance keeps the books. -/
theorem Sound.uses (sound : Sound db) {env : Env} {account : ℕ}
    (uses : Uses db next env id row account) : Sound next ∧ Kept db next := by
  have kept : Kept db next := by
    refine kept_put uses.found (active_not_ended uses.active) ?_ uses.invites
    rfl
  obtain ⟨unused, _, _⟩ := active_open uses.active
  have unlisted : ∀ acceptance ∈ db.accepted, acceptance.invite ≠ id := by
    rintro acceptance listed rfl
    obtain ⟨old, found, used, _⟩ := sound.used acceptance listed
    rw [uses.found] at found
    cases found
    rw [unused] at used
    cases used
  have same : db.accepted.filter next.templated = db.accepted.filter db.templated := by
    apply List.filter_congr
    intro acceptance listed
    obtain ⟨old, found, used, _⟩ := sound.used acceptance listed
    unfold Db.templated
    rw [found, kept.ended _ old found (.inl (by rw [used]; simp))]
  have templated : next.templated ⟨id, account, env.now⟩ = row.vpn := by
    unfold Db.templated
    rw [uses.invites, Table.lookup_put_self, Option.any_some]
  refine ⟨?_, kept⟩
  constructor
  · rw [references_iff]
    intro profile p found
    have owned : ∀ other q, db.profiles.lookup other = some q →
        ∃ r, next.accounts.lookup q.owner = some r := by
      intro other q has
      obtain ⟨r, owner⟩ := references_iff.mp sound.references other q has
      exact uses.accounts q.owner r owner
    by_cases vpn : row.vpn = true
    · obtain ⟨made, template, only⟩ := uses.template (sound.kinds id row uses.found vpn) vpn
      have put : ∃ p, p.owner = account ∧ next.profiles = db.profiles.put made p := by
        cases named : row.tariff with
        | none => exact ⟨_, rfl, (template.plain named).1⟩
        | some key =>
          obtain ⟨_, _, profiles, _⟩ := template.tariff key named
          exact ⟨_, rfl, profiles⟩
      obtain ⟨p', owner, profiles⟩ := put
      rw [profiles, Table.lookup_put] at found
      split at found
      · cases found
        rw [owner]
        exact uses.present
      · exact owned profile p found
    · rw [(uses.plain (.inl (by simpa using vpn))).profiles] at found
      exact owned profile p found
  · intro other old has
    rw [uses.invites, Table.lookup_put] at has
    split at has
    · cases has
      exact sound.kinds id row uses.found
    · exact sound.kinds other old has
  · intro acceptance listed
    rw [uses.accepted] at listed
    rcases List.mem_append.mp listed with old | new
    · obtain ⟨r, found, used, who⟩ := sound.used acceptance old
      exact ⟨r, kept.ended _ r found (.inl (by rw [used]; simp)), used, who⟩
    · cases List.mem_singleton.mp new
      exact ⟨_, by rw [uses.invites, Table.lookup_put_self], rfl, rfl⟩
  · rw [uses.accepted, List.map_append, List.nodup_append]
    refine ⟨sound.once, List.nodup_singleton _, ?_⟩
    rintro invite listed other last rfl
    obtain ⟨acceptance, old, rfl⟩ := List.mem_map.mp listed
    exact unlisted acceptance old (List.mem_singleton.mp last)
  · rw [uses.accepted, List.filter_append, same, List.map_append, ← sound.applied]
    by_cases vpn : row.vpn = true
    · obtain ⟨_, template, _⟩ := uses.template (sound.kinds id row uses.found vpn) vpn
      rw [template.applied, List.filter_cons_of_pos (by rw [templated, vpn])]
      rfl
    · rw [(uses.plain (.inl (by simpa using vpn))).applied,
        List.filter_cons_of_neg (by rw [templated]; exact vpn)]
      simp

/-- The acceptance of a transaction. -/
def Op.env : Op → Option Env
  | .accept env .. | .acceptTelegram env .. => some env
  | _ => none

theorem step_accepted (sound : Sound db) {op : Op} {result : Accepted}
    (accepted : db.step lower op = (.accepted result, next)) :
    ∃ env id row, op.env = some env ∧ Uses db next env id row result.account := by
  cases op with
  | create actor creation now =>
    simp only [Db.step] at accepted
    split at accepted <;> cases accepted
  | revoke actor id now =>
    simp only [Db.step] at accepted
    split at accepted <;> cases accepted
  | preview token source now =>
    simp only [Db.step] at accepted
    split at accepted <;> cases accepted
  | accept env token login password source =>
    simp only [Db.step, Db.accept] at accepted
    split at accepted
    · cases accepted
    · cases accepted
    · next account tokens after ok =>
      cases accepted
      obtain ⟨id, row, uses⟩ := accepting_ok sound.references ok
      exact ⟨env, id, row, rfl, uses⟩
  | acceptTelegram env token subject login source =>
    simp only [Db.step, Db.acceptTelegram] at accepted
    split at accepted
    · cases accepted
    · cases accepted
    · next account after ok =>
      cases accepted
      obtain ⟨id, row, uses⟩ := acceptingTelegram_ok sound.references ok
      exact ⟨env, id, row, rfl, uses⟩
  | others after =>
    simp only [Db.step] at accepted
    split at accepted <;> cases accepted

/-- A step that raises changes nothing but the counted attempts. -/
theorem step_denied {op : Op} {denied : Denied} (refused : db.step lower op = (.denied denied, next)) :
    next = { db with toDb := { db.toDb with attempts := next.attempts } } := by
  cases op with
  | create actor creation now =>
    simp only [Db.step] at refused
    split at refused <;> cases refused
    rfl
  | revoke actor id now =>
    simp only [Db.step] at refused
    split at refused <;> cases refused
    rfl
  | preview token source now =>
    simp only [Db.step] at refused
    split at refused <;> cases refused <;> rfl
  | accept env token login password source =>
    simp only [Db.step, Db.accept] at refused
    split at refused <;> cases refused <;> rfl
  | acceptTelegram env token subject login source =>
    simp only [Db.step, Db.acceptTelegram] at refused
    split at refused <;> cases refused <;> rfl
  | others after =>
    simp only [Db.step] at refused
    split at refused <;> cases refused

theorem Sound.step (sound : Sound db) (op : Op) :
    Sound (db.step lower op).2 ∧ Kept db (db.step lower op).2 := by
  cases replied : db.step lower op with
  | mk reply next =>
    cases reply with
    | accepted result =>
      obtain ⟨_, id, row, _, uses⟩ := step_accepted sound replied
      exact sound.uses uses
    | denied denied =>
      have same := step_denied replied
      exact ⟨sound.of_same (by rw [same]; exact sound.references) (by rw [same]) (by rw [same])
        (by rw [same]), Kept.of_same (by rw [same])⟩
    | done =>
      cases op with
      | create actor creation now =>
        simp only [Db.step] at replied
        split at replied
        · cases replied
        · next after ok =>
          cases replied
          exact sound.create ok
      | revoke actor id now =>
        simp only [Db.step] at replied
        split at replied
        · cases replied
        · next after ok =>
          cases replied
          exact sound.revoke ok
      | preview token source now =>
        simp only [Db.step] at replied
        split at replied <;> cases replied
        exact ⟨sound, Kept.of_same rfl⟩
      | accept env token login password source =>
        simp only [Db.step, Db.accept] at replied
        split at replied <;> cases replied
      | acceptTelegram env token subject login source =>
        simp only [Db.step, Db.acceptTelegram] at replied
        split at replied <;> cases replied
      | others after =>
        simp only [Db.step] at replied
        split at replied
        · next references =>
          cases replied
          exact ⟨sound.of_same references rfl rfl rfl, Kept.of_same rfl⟩
        · cases replied
          exact ⟨sound, Kept.of_same rfl⟩

theorem Sound.run (sound : Sound db) (ops : List Op) :
    Sound (db.run lower ops) ∧ Kept db (db.run lower ops) := by
  induction ops generalizing db with
  | nil => exact ⟨sound, Kept.of_same rfl⟩
  | cons op ops ih =>
    have ⟨after, first⟩ : Sound (db.step lower op).2 ∧ Kept db (db.step lower op).2 :=
      sound.step op
    obtain ⟨last, rest⟩ := ih after
    exact ⟨last, first.trans rest⟩

/-- In every run an invite is accepted once at most, while it is active, and its template is
applied with it once, with the rights its creator has then; what raises leaves only a counted
attempt, and an invite that was used or revoked stays as it is. -/
theorem invites_used_once (lower : String → String) (ops : List Op) :
    let s := Db.initial.run lower ops
    (s.accepted.map Acceptance.invite).Nodup ∧
    s.applied = (s.accepted.filter s.templated).map Acceptance.invite ∧
    (∀ op result next, s.step lower op = (.accepted result, next) →
      ∃ env id row, op.env = some env ∧ Uses s next env id row result.account ∧
        row.usedAt = none ∧ row.revokedAt = none ∧ env.now < row.expiresAt ∧
        (row.vpn = true → row.kind = .new)) ∧
    (∀ op denied next, s.step lower op = (.denied denied, next) →
      next = { s with toDb := { s.toDb with attempts := next.attempts } }) ∧
    ∀ more id row, s.invites.lookup id = some row → row.ended →
      (s.run lower more).invites.lookup id = some row := by
  intro s
  have ⟨sound, _⟩ : Sound s ∧ Kept Db.initial s := Sound.initial.run ops
  refine ⟨sound.once, sound.applied, ?_, fun op denied next refused => step_denied refused, ?_⟩
  · intro op result next accepted
    obtain ⟨env, id, row, of, uses⟩ := step_accepted sound accepted
    obtain ⟨unused, unrevoked, early⟩ := active_open uses.active
    exact ⟨env, id, row, of, uses, unused, unrevoked, early, sound.kinds id row uses.found⟩
  · intro more id row found finished
    exact (sound.run more).2.ended id row found finished

section Samples

/-- An owner and a tariff of thirty days with access. -/
private def staffed : Db :=
  { Db.initial with
    toDb := { Db.initial.toDb with accounts := Table.put ∅ 1 ⟨.admin, .approved, 1⟩ }
    tariffs := Table.put ∅ 5 ⟨some 30, some "all"⟩ }

private def owner : Actor := ⟨1, false, [.accountsManage, .profilesManage, .grantsManage]⟩

private def atTime (now account profile : ℕ) : Env :=
  ⟨now, now, account, profile, none, fun _ => true⟩

private def used : List Op :=
  [.others staffed, .create owner ⟨7, 70, none, true, some 5, 7, ""⟩ 0,
    .accept (atTime 10 20 30) (some 70) (some "alice") none none]

/-- An invite is accepted in the cabinet, and its second use is refused. -/
theorem invites_used_once_sample :
    let s := Db.initial.run String.toLower used
    s.accepted = [⟨7, 20, 10⟩] ∧ s.applied = [7] ∧
      s.profiles.lookup 30 = some ⟨20, some (10 + 30 * 24 * 60 * 60), 2⟩ ∧
      s.operations = [⟨30, 1⟩] ∧ (s.accepted.map Acceptance.invite).Nodup ∧
      (s.step String.toLower (.acceptTelegram (atTime 11 21 31) (some 70) "9" none none)).1 =
        .denied inviteInvalid :=
  ⟨by decide +kernel, by decide +kernel, by decide +kernel, by decide +kernel,
    (invites_used_once String.toLower used).1, by decide +kernel⟩

end Samples

end Invites
end NodePlane
