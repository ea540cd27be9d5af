import NodePlane.Controller.Owners

/-! What an update of an account can do to its roles, and to owners. -/
namespace NodePlane
namespace Accounts
open Library

variable {db after : Db} {id : ℕ} {row : Row} {actor : Actor}

theorem holds_of_require {permission : Permission}
    (ok : requirePermission actor permission = .ok ()) : actor.account.holds permission = true := by
  rw [requirePermission, deny, deny, deny] at ok
  split at ok
  · cases ok
  split at ok
  · cases ok
  split at ok
  · cases ok
  split at ok
  · cases ok
  · next held => simpa using held

/-- A check that did not refuse. -/
theorem of_check {α : Type} {c : Prop} [Decidable c] {denied : Denied} {rest : Except Denied α}
    {a : α} (ok : (if c then .error denied else rest) = .ok a) : ¬ c ∧ rest = .ok a := by
  by_cases met : c
  · rw [if_pos met] at ok
    cases ok
  · rw [if_neg met] at ok
    exact ⟨met, ok⟩

/-- A check under a condition, that did not refuse. -/
theorem of_guard {α : Type} {c d : Prop} [Decidable c] [Decidable d] {denied : Denied}
    {rest : Except Denied α} {a : α}
    (ok : (if c then if d then .error denied else rest else rest) = .ok a) :
    (c → ¬ d) ∧ rest = .ok a := by
  by_cases met : c
  · rw [if_pos met] at ok
    obtain ⟨passed, ok⟩ := of_check ok
    exact ⟨fun _ => passed, ok⟩
  · rw [if_neg met] at ok
    exact ⟨fun held => absurd held met, ok⟩

theorem asked_cases {change : Change} {asked : Option AccountRole}
    (ok : change.asked actor = .ok asked) :
    (change.roles = none ∧ asked = change.role) ∨
      ∃ roles, change.roles = some roles ∧ actor.account.holds .rolesManage = true ∧
        asked = some (if roles = [] then .member else .admin) := by
  rw [Change.asked] at ok
  simp only [bind, Except.bind, deny, pure, Except.pure] at ok
  split at ok
  · cases ok
  obtain ⟨_, ok⟩ := of_check ok
  split at ok
  · next none =>
    obtain ⟨_, ok⟩ := of_check ok
    obtain ⟨_, ok⟩ := of_check ok
    exact .inl ⟨none, (Except.ok.inj ok).symm⟩
  · next roles some =>
    split at ok
    · cases ok
    next allowed =>
    obtain ⟨_, ok⟩ := of_check ok
    obtain ⟨_, ok⟩ := of_check ok
    obtain ⟨_, ok⟩ := of_check ok
    exact .inr ⟨roles, some, holds_of_require allowed, (Except.ok.inj ok).symm⟩

/-- An active owner is only moved from its role by one who manages roles, and beside another. -/
theorem guardMove_owner {role : AccountRole} {status : Status}
    (ok : db.guardMove actor id row role status = .ok ()) (admin : row.role = .admin)
    (approved : row.status = .approved) (leaves : ¬ (role = .admin ∧ status = .approved))
    (owner : Role.owner ∈ db.roles id row) :
    actor.account.holds .rolesManage = true ∧ ¬ db.owners ≤ 1 := by
  rw [Db.guardMove] at ok
  simp only [bind, Except.bind, deny, pure, Except.pure] at ok
  obtain ⟨_, ok⟩ := of_check ok
  rw [if_pos ⟨admin, approved, leaves⟩, if_pos owner] at ok
  obtain ⟨_, ok⟩ := of_check ok
  split at ok
  · cases ok
  next allowed =>
  obtain ⟨several, _⟩ := of_check ok
  exact ⟨holds_of_require allowed, several⟩

theorem update_cases {change : Change} (ok : db.update actor id change = .ok after) :
    after = db ∨ ∃ row, db.accounts.lookup id = some row ∧
      ((∃ roles, change.roles = some roles ∧ actor.account.holds .rolesManage = true ∧
          (Role.owner ∈ db.roles id row → Role.owner ∉ roles → ¬ db.owners ≤ 1) ∧
          after = { db.assign id roles.toFinset with
            accounts := (db.assign id roles.toFinset).accounts.alter id fun row =>
              { row with revision := row.revision + 1 } }) ∨
        ∃ role status, db.guardMove actor id row role status = .ok () ∧
          (row.role = .admin → status = .approved) ∧
          (role = row.role ∨ actor.account.holds .rolesManage = true ∨
            change.roles = none ∧ change.role = some role) ∧
          after = db.move id row role status change.roles) := by
  rw [Db.update] at ok
  simp only [bind, Except.bind, deny, pure, Except.pure] at ok
  split at ok
  · cases ok
  next asked given =>
  obtain ⟨_, ok⟩ := of_check ok
  split at ok
  swap
  · cases ok
  next row found =>
  obtain ⟨_, ok⟩ := of_check ok
  obtain ⟨_, ok⟩ := of_check ok
  obtain ⟨keeps, ok⟩ := of_guard ok
  obtain ⟨stays, ok⟩ := of_check ok
  have active (admin : row.role = .admin) : change.status.getD row.status = .approved := by
    by_contra blocked
    exact stays ⟨admin, blocked⟩
  split at ok
  · split at ok
    swap
    · exact .inl (Except.ok.inj ok).symm
    next changed =>
    right
    refine ⟨row, found, .inl ?_⟩
    rcases asked_cases given with ⟨none, _⟩ | ⟨roles, some, allowed, _⟩
    · rw [none] at changed
      cases changed
    · rw [some, Option.getD_some] at ok
      refine ⟨roles, some, allowed, ?_, (Except.ok.inj ok).symm⟩
      intro owner taken
      apply keeps ⟨changed, owner, ?_⟩
      rw [some, Option.any_some, decide_eq_true_iff]
      exact taken
  · split at ok
    · cases ok
    next guarded =>
    right
    refine ⟨row, found, .inr ⟨_, _, guarded, active, ?_, (Except.ok.inj ok).symm⟩⟩
    rcases asked_cases given with ⟨none, asks⟩ | ⟨roles, _, allowed, _⟩
    · rw [asks]
      cases role : change.role with
      | none => exact .inl rfl
      | some role => exact .inr (.inr ⟨none, rfl⟩)
    · exact .inr (.inl allowed)

/-- The account that a command changed, with all others as they were. -/
structure Changed (db after : Db) (id : ℕ) (row row' : Row) : Prop where
  found : db.accounts.lookup id = some row
  stored : after.accounts.lookup id = some row'
  others : ∀ other, other ≠ id → after.accounts.lookup other = db.accounts.lookup other
  apart : ∀ other, other ≠ id → after.assignments other = db.assignments other
  mirrors : after.assignments id ≠ ∅ → row'.role = .admin

section
variable {row' : Row}

theorem Changed.mirror (changed : Changed db after id row row')
    (mirror : Mirror db.accounts db.assignments) : Mirror after.accounts after.assignments := by
  intro other assigned
  by_cases same : other = id
  · subst same
    exact ⟨row', changed.stored, changed.mirrors assigned⟩
  · rw [changed.apart other same] at assigned
    obtain ⟨found, held, admin⟩ := mirror other assigned
    exact ⟨found, by rw [changed.others other same, held], admin⟩

theorem Changed.hasOwner (changed : Changed db after id row row')
    (keeps : db.isOwner id row = true → after.isOwner id row' = true ∨ ¬ db.owners ≤ 1)
    (owned : db.HasOwner) : after.HasOwner := by
  have stays {other : ℕ} {held : Row} (apart : other ≠ id)
      (found : db.accounts.lookup other = some held) (owner : db.isOwner other held = true) :
      after.HasOwner := by
    refine ⟨other, held, by rw [changed.others other apart, found], ?_⟩
    rw [Db.isOwner, changed.apart other apart]
    exact owner
  obtain ⟨other, held, found, owner⟩ := owned
  by_cases same : other = id
  · subst same
    cases found.symm.trans changed.found
    rcases keeps owner with kept | several
    · exact ⟨other, row', changed.stored, kept⟩
    · obtain ⟨another, held, apart, found, owner⟩ := other_owner several other
      exact stays apart found owner
  · exact stays same found owner

theorem rolesOf_found (found : db.accounts.lookup id = some row) :
    db.rolesOf id = db.roles id row := by
  rw [Db.rolesOf, found]

theorem Changed.rolesOf (changed : Changed db after id row row') {other : ℕ} (apart : other ≠ id) :
    after.rolesOf other = db.rolesOf other := by
  simp only [Db.rolesOf, Db.roles, Db.accountRoles, changed.others other apart,
    changed.apart other apart]

end

theorem lookup_assign (db : Db) (id other : ℕ) (roles : Finset Role) :
    (db.assign id roles).accounts.lookup other =
      if other = id then (db.accounts.lookup id).map fun row =>
        { row with role := if roles = ∅ then .member else .admin }
      else db.accounts.lookup other :=
  Table.lookup_alter ..

theorem assignments_assign (db : Db) (id other : ℕ) (roles : Finset Role) :
    (db.assign id roles).assignments other = if other = id then roles else db.assignments other :=
  Function.update_apply ..

/-- The roles that a moved account gets. -/
def movedRoles (role : AccountRole) (roles : Option (List Role)) : Finset Role :=
  match roles with
  | some roles => roles.toFinset
  | none => if role = .admin then {.admin} else ∅

theorem changed_move {role : AccountRole} {status : Status} {roles : Option (List Role)}
    (found : db.accounts.lookup id = some row) (mirror : Mirror db.accounts db.assignments) :
    ∃ row', Changed db (db.move id row role status roles) id row row' ∧ row'.status = status ∧
      (role = row.role → row'.role = row.role ∧
        (db.move id row role status roles).assignments id = db.assignments id) ∧
      (role ≠ row.role → row'.role = (if movedRoles role roles = ∅ then .member else .admin) ∧
        (db.move id row role status roles).assignments id = movedRoles role roles) := by
  simp only [Db.move]
  split
  · next same =>
    refine ⟨_, ⟨found, Table.lookup_put_self .., ?_, fun _ _ => rfl, ?_⟩, rfl,
      fun _ => ⟨same, rfl⟩, fun moved => absurd same moved⟩
    · intro other apart
      exact Table.lookup_put_ne _ apart
    · intro assigned
      obtain ⟨held, found', admin⟩ := mirror id assigned
      cases found.symm.trans found'
      exact same.trans admin
  · next moved =>
    refine ⟨⟨if movedRoles role roles = ∅ then .member else .admin, status, row.revision + 1⟩,
      ⟨found, ?_, ?_, ?_, ?_⟩, rfl, fun same => absurd same moved, fun _ => ⟨rfl, ?_⟩⟩
    · rw [lookup_assign, if_pos rfl, Table.lookup_put_self]
      rfl
    · intro other apart
      rw [lookup_assign, if_neg apart, Table.lookup_put_ne _ apart]
    · intro other apart
      rw [assignments_assign, if_neg apart]
    · intro assigned
      rw [assignments_assign, if_pos rfl] at assigned
      exact if_neg assigned
    · rw [assignments_assign, if_pos rfl]
      rfl

/-- An inactive account with the owner's role is made a member. -/
def Revokes (db : Db) (id : ℕ) (change : Change) : Prop :=
  ∃ row, db.accounts.lookup id = some row ∧ row.status ≠ .approved ∧
    Role.owner ∈ db.rolesOf id ∧ change.role = some .member ∧ change.roles = none

/-- The roles of an owner change, before or after. -/
def TouchesOwner (db after : Db) (id : ℕ) : Prop :=
  after.rolesOf id ≠ db.rolesOf id ∧ (Role.owner ∈ db.rolesOf id ∨ Role.owner ∈ after.rolesOf id)

section
variable {change : Change} {row' : Row} {role : AccountRole} {status : Status}

theorem move_owner (changed : Changed db after id row row')
    (mirror : Mirror db.accounts db.assignments)
    (guarded : db.guardMove actor id row role status = .ok ())
    (active : row.role = .admin → status = .approved) (state : row'.status = status)
    (same : role = row.role → row'.role = row.role ∧ after.assignments id = db.assignments id)
    (owner : db.isOwner id row = true) : after.isOwner id row' = true ∨ ¬ db.owners ≤ 1 := by
  obtain ⟨approved, admin, held⟩ := (isOwner_iff mirror changed.found).mp owner
  by_cases stays : role = row.role
  · obtain ⟨role', assigned⟩ := same stays
    left
    rw [Db.isOwner, approved] at owner
    rw [Db.isOwner, role', assigned, state.trans (active admin)]
    exact owner
  · right
    apply (guardMove_owner guarded admin approved _ held).2
    rintro ⟨staff, _⟩
    exact stays (staff.trans admin.symm)

theorem move_roles (changed : Changed db after id row row')
    (guarded : db.guardMove actor id row role status = .ok ())
    (asks : role = row.role ∨ actor.account.holds .rolesManage = true ∨
      change.roles = none ∧ change.role = some role)
    (same : role = row.role → row'.role = row.role ∧ after.assignments id = db.assignments id)
    (moved : role ≠ row.role →
      row'.role = (if movedRoles role change.roles = ∅ then .member else .admin) ∧
        after.assignments id = movedRoles role change.roles)
    (touched : TouchesOwner db after id) :
    actor.account.holds .rolesManage = true ∨ Revokes db id change := by
  have before := rolesOf_found changed.found
  have later := rolesOf_found changed.stored
  by_cases stays : role = row.role
  · obtain ⟨role', assigned⟩ := same stays
    apply absurd _ touched.1
    rw [before, later]
    simp only [Db.roles, Db.accountRoles, role', assigned]
  · rcases asks with same | allowed | ⟨exactly, asked⟩
    · exact absurd same stays
    · exact .inl allowed
    obtain ⟨role', assigned⟩ := moved stays
    rw [exactly] at role' assigned
    cases role with
    | admin =>
      -- A member becomes an administrator, and was no owner.
      have member : row.role = .member := by
        cases was : row.role with
        | member => rfl
        | admin => exact absurd was.symm stays
      have admin : row'.role = .admin := by
        rw [role']
        decide
      rcases touched.2 with owner | owner
      · rw [before, roles_member member] at owner
        cases owner
      · rw [later, roles_admin admin, assigned] at owner
        exact absurd owner (by decide)
    | member =>
      have admin : row.role = .admin := by
        cases was : row.role with
        | member => exact absurd was.symm stays
        | admin => rfl
      have owner : Role.owner ∈ db.rolesOf id := by
        rcases touched.2 with owner | owner
        · exact owner
        · rw [later, roles_member (by rw [role']; rfl)] at owner
          cases owner
      by_cases approved : row.status = .approved
      · rw [before] at owner
        left
        apply (guardMove_owner guarded admin approved _ owner).1
        rintro ⟨wrong, _⟩
        cases wrong
      · exact .inr ⟨row, changed.found, approved, owner, asked, exactly⟩

theorem update_changed (mirror : Mirror db.accounts db.assignments)
    (ok : db.update actor id change = .ok after) :
    after = db ∨ ∃ row row', Changed db after id row row' ∧
      (db.isOwner id row = true → after.isOwner id row' = true ∨ ¬ db.owners ≤ 1) ∧
      (TouchesOwner db after id → actor.account.holds .rolesManage = true ∨ Revokes db id change) := by
  rcases update_cases ok with same | ⟨row, found, staff | moves⟩
  · exact .inl same
  · obtain ⟨roles, _, allowed, keeps, _, rfl⟩ := staff
    right
    have looked (other : ℕ) := lookup_assign db id other roles.toFinset
    refine ⟨row, ⟨if roles.toFinset = ∅ then .member else .admin, row.status, row.revision + 1⟩,
      ⟨found, ?_, ?_, ?_, ?_⟩, ?_, fun _ => .inl allowed⟩
    · rw [Table.lookup_alter, if_pos rfl, looked, if_pos rfl, found]
      rfl
    · intro other apart
      rw [Table.lookup_alter_ne _ apart, looked, if_neg apart]
    · intro other apart
      exact (assignments_assign ..).trans (if_neg apart)
    · intro assigned
      rw [assignments_assign, if_pos rfl] at assigned
      exact if_neg assigned
    · intro owner
      obtain ⟨approved, admin, held⟩ := (isOwner_iff mirror found).mp owner
      by_cases taken : Role.owner ∈ roles
      · left
        simp [Db.isOwner, assignments_assign, approved, taken]
      · exact .inr (keeps held taken)
  · obtain ⟨role, status, guarded, active, asks, rfl⟩ := moves
    right
    obtain ⟨row', changed, state, same, moved⟩ := changed_move found mirror
    exact ⟨row, row', changed, move_owner changed mirror guarded active state same,
      move_roles changed guarded asks same moved⟩

end

end Accounts
end NodePlane
