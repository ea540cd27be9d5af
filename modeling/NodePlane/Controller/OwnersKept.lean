import NodePlane.Controller.OwnerUpdates

/-! Over every run an installation keeps an owner, and only who manages roles changes owners. -/
namespace NodePlane
namespace Accounts
open Library

variable {db after : Db} {id : ℕ} {row : Row} {actor : Actor}

/-! Restores. -/

/-- The restoring administrator's sign-in identities. -/
def Db.own (db : Db) (actor : ℕ) : List (String × String) :=
  (db.identities.rows.filter fun identity => identity.2 = actor).map Prod.fst

/-- The installation that a backup holds. -/
def Snapshot.installed (snapshot : Snapshot) : Db :=
  { accounts := snapshot.accounts
    assignments := snapshot.assignments
    identities := snapshot.identities
    profiles := snapshot.profiles
    profileDeletions := []
    deletions := ∅
    requests := snapshot.requests
    registrations := snapshot.registrations
    merges := ∅
    links := ∅ }

/-- The accounts and roles after a restore by `me`, which was the `former` accounts. -/
structure Restored (db after : Db) (snapshot : Snapshot) (me : ℕ) (former : List ℕ) : Prop where
  remapped : snapshot.remap me (db.own me) = .ok former
  active : ∃ row, db.accounts.lookup me = some row ∧ row.role = .admin ∧ row.status = .approved
  mine : after.accounts.lookup me = db.accounts.lookup me
  gone : ∀ id ∈ former, id ≠ me → after.accounts.lookup id = none
  others : ∀ id, id ≠ me → id ∉ former → after.accounts.lookup id = snapshot.accounts.lookup id
  assignments : ∀ id, after.assignments id =
    if id = me then db.assignments me else if id ∈ former then ∅ else snapshot.assignments id

theorem of_restore {snapshot : Snapshot} (ok : db.restore actor snapshot = .ok after) :
    ∃ former, Restored db after snapshot actor.account.id former := by
  rw [Db.restore] at ok
  simp only [bind, Except.bind, deny] at ok
  split at ok
  swap
  · cases ok
  next current found =>
  obtain ⟨staff, ok⟩ := of_check ok
  rw [not_not] at staff
  split at ok
  · cases ok
  split at ok
  · cases ok
  next former remapped =>
  obtain ⟨_, ok⟩ := of_check ok
  obtain ⟨_, ok⟩ := of_check ok
  cases ok
  refine ⟨former, remapped, ⟨current, found, staff⟩, ?_, ?_, ?_, fun _ => rfl⟩
  · exact (Table.lookup_put_self ..).trans found.symm
  · intro id was apart
    refine (Table.lookup_put_ne _ apart).trans ?_
    rw [Option.eq_none_iff_forall_ne_some]
    intro row held
    rw [Table.lookup_keep] at held
    simp [was] at held
  · intro id apart stays
    refine (Table.lookup_put_ne _ apart).trans (Option.ext fun row => ?_)
    rw [Table.lookup_keep]
    simp [apart, stays]

/-- An account of the backup with a sign-in identity that is now the restoring account's. -/
def Was (db : Db) (snapshot : Snapshot) (me id : ℕ) : Prop :=
  ∃ key, db.identities.lookup key = some me ∧ snapshot.identities.lookup key = some id

theorem remap_step {snapshot : Snapshot} {me : ℕ} {key : String × String} {former next : List ℕ}
    (ok : snapshot.remapOne me former key = .ok next) (id : ℕ) :
    id ∈ next ↔ id ∈ former ∨ id ≠ me ∧ snapshot.identities.lookup key = some id := by
  rw [Snapshot.remapOne, deny] at ok
  split at ok
  · next missing =>
    cases ok
    simp [missing]
  · next account found =>
    rw [found, Option.some.injEq]
    split at ok
    · next same =>
      cases ok
      constructor
      · exact .inl
      · rintro (held | ⟨apart, rfl⟩)
        · exact held
        · exact absurd same apart
    · next apart =>
      split at ok
      · cases ok
        rw [List.mem_insert_iff]
        constructor
        · rintro (rfl | held)
          · exact .inr ⟨apart, rfl⟩
          · exact .inl held
        · rintro (held | ⟨_, rfl⟩)
          · exact .inr held
          · exact .inl rfl
      · cases ok

theorem mem_remap {snapshot : Snapshot} {me : ℕ} {former : List ℕ}
    (ok : snapshot.remap me (db.own me) = .ok former) (id : ℕ) :
    id ∈ former ↔ id ≠ me ∧ Was db snapshot me id := by
  have walked : ∀ (own : List (String × String)) (before former : List ℕ),
      own.foldlM (snapshot.remapOne me) before = .ok former →
      (id ∈ former ↔ id ∈ before ∨
        id ≠ me ∧ ∃ key ∈ own, snapshot.identities.lookup key = some id) := by
    intro own
    induction own with
    | nil =>
      intro before former ok
      cases ok
      simp
    | cons key rest ih =>
      intro before former ok
      rw [List.foldlM_cons] at ok
      simp only [bind, Except.bind] at ok
      split at ok
      · cases ok
      · next next stepped =>
        rw [ih _ _ ok, remap_step stepped id]
        simp only [List.mem_cons, exists_eq_or_imp]
        tauto
  rw [walked _ _ _ ok]
  simp only [List.not_mem_nil, false_or]
  constructor
  · rintro ⟨apart, key, own, found⟩
    obtain ⟨⟨key, account⟩, held, rfl⟩ := List.mem_map.mp own
    rw [List.mem_filter, Table.mem_rows_iff, decide_eq_true_iff] at held
    exact ⟨apart, key, held.1.trans (congrArg some held.2), found⟩
  · rintro ⟨apart, key, mine, found⟩
    refine ⟨apart, key, List.mem_map.mpr ⟨(key, me), ?_, rfl⟩, found⟩
    rw [List.mem_filter, Table.mem_rows_iff]
    exact ⟨mine, decide_eq_true rfl⟩

section
variable {snapshot : Snapshot} {me : ℕ} {former : List ℕ}

theorem Restored.rolesOf_me (restored : Restored db after snapshot me former) :
    after.rolesOf me = db.rolesOf me := by
  simp only [Db.rolesOf, Db.roles, Db.accountRoles, restored.mine, restored.assignments, if_pos]

theorem Restored.rolesOf_former (restored : Restored db after snapshot me former)
    (apart : id ≠ me) (was : Was db snapshot me id) : after.rolesOf id = ∅ := by
  rw [Db.rolesOf, restored.gone id ((mem_remap restored.remapped id).mpr ⟨apart, was⟩) apart]

theorem Restored.rolesOf_other (restored : Restored db after snapshot me former)
    (apart : id ≠ me) (stays : ¬ Was db snapshot me id) :
    after.rolesOf id = snapshot.installed.rolesOf id := by
  have kept : id ∉ former := fun was => stays ((mem_remap restored.remapped id).mp was).2
  simp only [Db.rolesOf, Db.roles, Db.accountRoles, restored.others id apart kept,
    restored.assignments, if_neg apart, if_neg kept]
  rfl

theorem Restored.mirror (restored : Restored db after snapshot me former)
    (mirror : Mirror db.accounts db.assignments)
    (backup : Mirror snapshot.accounts snapshot.assignments) :
    Mirror after.accounts after.assignments := by
  intro id assigned
  rw [restored.assignments] at assigned
  by_cases mine : id = me
  · subst mine
    rw [if_pos rfl] at assigned
    rw [restored.mine]
    exact mirror id assigned
  · rw [if_neg mine] at assigned
    by_cases was : id ∈ former
    · rw [if_pos was] at assigned
      exact absurd rfl assigned
    · rw [if_neg was] at assigned
      rw [restored.others id mine was]
      exact backup id assigned

/-- The restoring account is an owner, or the backup has one that the restore keeps. -/
theorem Restored.hasOwner_iff (restored : Restored db after snapshot me former)
    (mirror : Mirror db.accounts db.assignments) :
    after.HasOwner ↔ Role.owner ∈ db.rolesOf me ∨ ∃ id row, id ≠ me ∧ ¬ Was db snapshot me id ∧
      snapshot.accounts.lookup id = some row ∧ snapshot.installed.isOwner id row = true := by
  obtain ⟨current, found, admin, approved⟩ := restored.active
  have mine : after.isOwner me current = db.isOwner me current := by
    simp only [Db.isOwner, restored.assignments, if_pos]
  constructor
  · rintro ⟨id, row, held, owner⟩
    by_cases same : id = me
    · subst same
      rw [restored.mine, found] at held
      cases held
      rw [mine, isOwner_iff mirror found] at owner
      left
      rw [rolesOf_found found]
      exact owner.2.2
    · right
      by_cases was : id ∈ former
      · rw [restored.gone id was same] at held
        cases held
      · refine ⟨id, row, same, fun formerly => was ((mem_remap restored.remapped id).mpr
          ⟨same, formerly⟩), (restored.others id same was).symm.trans held, ?_⟩
        rw [Db.isOwner, restored.assignments, if_neg same, if_neg was] at owner
        exact owner
  · rintro (owner | ⟨id, row, apart, stays, held, owner⟩)
    · refine ⟨me, current, restored.mine.trans found, ?_⟩
      rw [rolesOf_found found] at owner
      rw [mine, isOwner_iff mirror found]
      exact ⟨approved, admin, owner⟩
    · have kept : id ∉ former := fun was => stays ((mem_remap restored.remapped id).mp was).2
      refine ⟨id, row, (restored.others id apart kept).trans held, ?_⟩
      rw [Db.isOwner, restored.assignments, if_neg apart, if_neg kept]
      exact owner

end

/-- The installation of a backup mirrors its roles as the one it was taken of. -/
theorem createSnapshot_mirror (mirror : Mirror db.accounts db.assignments) :
    Mirror db.createSnapshot.accounts db.createSnapshot.assignments := by
  intro id assigned
  simp only [Db.createSnapshot] at assigned
  split at assigned
  · next stays =>
    obtain ⟨row, found, admin⟩ := mirror id assigned
    refine ⟨row, ?_, admin⟩
    rw [Db.createSnapshot, Table.lookup_keep]
    exact ⟨found, stays⟩
  · exact absurd rfl assigned

/-! Runs. -/

def Command.principal : Command → Option Principal
  | .update principal .. | .decide principal .. | .deleteProfile principal .. |
    .restore principal _ => some principal
  | .join .. | .linkConfirm .. | .cleanup .. | .settle _ => none

/-- Who changes the roles of an owner, or makes one, holds `roles.manage`. -/
def Guarded (db : Db) (command : Command) : Prop :=
  ∀ id, TouchesOwner db (db.next command) id → ∃ principal actor,
    command.principal = some principal ∧ db.actor principal = .ok actor ∧
      actor.account.holds .rolesManage = true

/-- The restore of a backup with its mirror, by an owner; or one that keeps another owner of the
backup, and no owner's roles change. -/
def KeepsOwner (db : Db) (snapshot : Snapshot) (me : ℕ) : Prop :=
  Mirror snapshot.accounts snapshot.assignments ∧ (Role.owner ∈ db.rolesOf me ∨
    (∃ id row, id ≠ me ∧ ¬ Was db snapshot me id ∧ snapshot.accounts.lookup id = some row ∧
      snapshot.installed.isOwner id row = true) ∧
    (∀ id, id ≠ me → Was db snapshot me id → Role.owner ∉ db.rolesOf id) ∧
    ∀ id, id ≠ me → ¬ Was db snapshot me id →
      snapshot.installed.rolesOf id = db.rolesOf id ∨
        Role.owner ∉ db.rolesOf id ∧ Role.owner ∉ snapshot.installed.rolesOf id)

def Careful (db : Db) : Command → Prop
  | .restore principal snapshot => KeepsOwner db snapshot principal.account
  | .update principal id change => Revokes db id change → Role.owner ∈ db.rolesOf principal.account
  | _ => True

def CarefulRun (db : Db) : List Command → Prop
  | [] => True
  | command :: rest => Careful db command ∧ CarefulRun (db.next command) rest

/-- An actor as it is loaded, with the roles of its account. -/
theorem actor_roles {principal : Principal} (loaded : db.actor principal = .ok actor) :
    actor.account.id = principal.account ∧
      effectiveRoles actor.account.role actor.account.roles = db.rolesOf principal.account := by
  rw [Db.actor] at loaded
  split at loaded
  · cases loaded
  · next row found =>
    simp only [deny] at loaded
    obtain ⟨_, loaded⟩ := of_check loaded
    obtain ⟨_, loaded⟩ := of_check loaded
    cases loaded
    exact ⟨rfl, (rolesOf_found found).symm⟩

theorem holds_of_owner {principal : Principal} (loaded : db.actor principal = .ok actor)
    (owner : Role.owner ∈ db.rolesOf principal.account) :
    actor.account.holds .rolesManage = true := by
  rw [Account.holds, (actor_roles loaded).2]
  simp [owner, presets]

/-- What is shown of one command. -/
structure Kept (db : Db) (command : Command) : Prop where
  mirror : Mirror (db.next command).accounts (db.next command).assignments
  owned : (db.next command).HasOwner
  guarded : Guarded db command

section
variable {command : Command}

theorem next_of_ok (ok : db.apply command = .ok after) : db.next command = after := by
  rw [Db.next, ok]

theorem kept_calm (mirror : Mirror db.accounts db.assignments) (owned : db.HasOwner)
    (calm : Calm db (db.next command)) : Kept db command :=
  { mirror := calm.mirror mirror
    owned := calm.hasOwner mirror owned
    guarded := fun _ touched => absurd calm.rolesOf touched.1 }

theorem kept_update {principal : Principal} {change : Change}
    (mirror : Mirror db.accounts db.assignments) (owned : db.HasOwner)
    (careful : Careful db (.update principal id change)) (loaded : db.actor principal = .ok actor)
    (ok : db.update actor id change = .ok after) : Kept db (.update principal id change) := by
  have next : db.next (.update principal id change) = after := by
    apply next_of_ok
    simp only [Db.apply, loaded, bind, Except.bind, ok]
  rcases update_changed mirror ok with rfl | ⟨row, row', changed, keeps, touches⟩
  · apply kept_calm mirror owned
    rw [next]
    exact .refl after
  · constructor
    · rw [next]
      exact changed.mirror mirror
    · rw [next]
      exact changed.hasOwner keeps owned
    · intro other touched
      rw [next] at touched
      refine ⟨principal, actor, rfl, loaded, ?_⟩
      by_cases same : other = id
      · subst same
        rcases touches touched with allowed | revokes
        · exact allowed
        · exact holds_of_owner loaded (careful revokes)
      · exact absurd (changed.rolesOf same) touched.1

theorem kept_restore {principal : Principal} {snapshot : Snapshot}
    (mirror : Mirror db.accounts db.assignments)
    (careful : Careful db (.restore principal snapshot)) (loaded : db.actor principal = .ok actor)
    (ok : db.restore actor snapshot = .ok after) : Kept db (.restore principal snapshot) := by
  have next : db.next (.restore principal snapshot) = after := by
    apply next_of_ok
    simp only [Db.apply, loaded, bind, Except.bind, ok]
  obtain ⟨former, restored⟩ := of_restore ok
  rw [(actor_roles loaded).1] at restored
  obtain ⟨backup, keeps⟩ := careful
  constructor
  · rw [next]
    exact restored.mirror mirror backup
  · rw [next, restored.hasOwner_iff mirror]
    rcases keeps with mine | ⟨other, _⟩
    · exact .inl mine
    · exact .inr other
  · intro id touched
    rw [next] at touched
    refine ⟨principal, actor, rfl, loaded, ?_⟩
    rcases keeps with mine | ⟨_, leaves, same⟩
    · exact holds_of_owner loaded mine
    · exfalso
      obtain ⟨changed, owner⟩ := touched
      by_cases me : id = principal.account
      · subst me
        exact changed restored.rolesOf_me
      by_cases was : Was db snapshot principal.account id
      · rw [restored.rolesOf_former me was] at owner
        rcases owner with before | never
        · exact leaves id me was before
        · cases never
      · rw [restored.rolesOf_other me was] at changed owner
        rcases same id me was with equal | ⟨before, later⟩
        · exact changed equal
        · exact owner.elim before later

theorem kept_next (mirror : Mirror db.accounts db.assignments) (owned : db.HasOwner)
    (careful : Careful db command) : Kept db command := by
  cases ok : db.apply command with
  | error denied =>
    apply kept_calm mirror owned
    rw [Db.next, ok]
    exact .refl db
  | ok after =>
    have next := next_of_ok ok
    cases command with
    | join id registered =>
      apply kept_calm mirror owned
      rw [next]
      exact calm_join ok
    | cleanup id finished =>
      exact kept_calm mirror owned calm_cleanup
    | settle finished =>
      exact kept_calm mirror owned calm_settle
    | linkConfirm account link finished =>
      apply kept_calm mirror owned
      rw [next]
      exact calm_linkConfirm ok
    | update principal id change =>
      simp only [Db.apply, bind, Except.bind] at ok
      split at ok
      · cases ok
      · next actor loaded => exact kept_update mirror owned careful loaded ok
    | decide principal request approve keep finished =>
      simp only [Db.apply, bind, Except.bind] at ok
      split at ok
      · cases ok
      apply kept_calm mirror owned
      rw [next]
      exact calm_decide ok
    | deleteProfile principal profile finished =>
      simp only [Db.apply, bind, Except.bind] at ok
      split at ok
      · cases ok
      apply kept_calm mirror owned
      rw [next]
      exact calm_deleteProfile ok
    | restore principal snapshot =>
      simp only [Db.apply, bind, Except.bind] at ok
      split at ok
      · cases ok
      · next actor loaded => exact kept_restore mirror careful loaded ok

end

theorem run_keeps (mirror : Mirror db.accounts db.assignments) (owned : db.HasOwner)
    (commands : List Command) (careful : CarefulRun db commands) :
    Mirror (db.run commands).accounts (db.run commands).assignments ∧
      (db.run commands).HasOwner := by
  induction commands generalizing db with
  | nil => exact ⟨mirror, owned⟩
  | cons command rest ih =>
    have kept := kept_next mirror owned careful.1
    exact ih kept.mirror kept.owned careful.2

/-- In a run whose restores keep an owner and whose updates leave inactive owners their roles,
an active account stays an owner, and only who holds `roles.manage` changes an owner's roles. -/
theorem owners_kept (mirror : Mirror db.accounts db.assignments) (owned : 0 < db.owners)
    (commands : List Command) (careful : CarefulRun db commands) :
    0 < (db.run commands).owners ∧
      ∀ command, Careful (db.run commands) command → Guarded (db.run commands) command := by
  obtain ⟨mirror, owned⟩ := run_keeps mirror (owners_pos.mp owned) commands careful
  refine ⟨owners_pos.mpr owned, ?_⟩
  intro command careful
  exact (kept_next mirror owned careful).guarded

section Handover

/-- One owner, and an account without roles. -/
def founded : Db :=
  { accounts := (Table.put ∅ 2 ⟨.member, .approved, 1⟩).put 1 ⟨.admin, .approved, 1⟩
    assignments := fun id => if id = 1 then {.owner} else ∅
    identities := ∅
    profiles := ∅
    profileDeletions := []
    deletions := ∅
    requests := []
    registrations := []
    merges := ∅
    links := ∅ }

def anyScope : List Permission := [.accountsManage, .profilesManage, .settingsManage, .rolesManage]

/-- The first owner makes the second account an owner, which leaves the first an administrator. -/
def handsOver : List Command :=
  [.update ⟨1, anyScope⟩ 2 ⟨none, none, some [.owner], 1⟩,
    .update ⟨2, anyScope⟩ 1 ⟨none, none, some [.admin], 1⟩]

theorem founded_mirror : Mirror founded.accounts founded.assignments := by
  intro id assigned
  by_cases first : id = 1
  · subst first
    exact ⟨⟨.admin, .approved, 1⟩, by decide, rfl⟩
  · exact absurd (if_neg first) assigned

theorem owners_kept_handsOver :
    0 < (founded.run handsOver).owners ∧
      Guarded (founded.run handsOver) (.restore ⟨2, anyScope⟩ founded.createSnapshot) := by
  have exactly {change : Change} {db : Db} {id : ℕ} (asks : change.role = none)
      (revokes : Revokes db id change) : False := by
    obtain ⟨_, _, _, _, role, _⟩ := revokes
    exact nomatch asks.symm.trans role
  have careful : CarefulRun founded handsOver :=
    ⟨fun revokes => (exactly rfl revokes).elim, fun revokes => (exactly rfl revokes).elim, trivial⟩
  obtain ⟨owned, guarded⟩ := owners_kept founded_mirror (by decide) handsOver careful
  refine ⟨owned, guarded _ ⟨createSnapshot_mirror founded_mirror, .inl ?_⟩⟩
  decide

/-- The first account, no owner any more, restores the backup of when it was the only one. -/
theorem restore_leaves_no_owner :
    0 < founded.owners ∧
      (founded.run (handsOver ++ [.restore ⟨1, anyScope⟩ founded.createSnapshot])).owners = 0 := by
  decide

end Handover

end Accounts
end NodePlane
