import NodePlane.Controller.Accounts
import Mathlib.Data.Finset.Insert

/-! Active owners as the code counts them, and the commands that leave roles alone. -/
namespace NodePlane
namespace Accounts
open Library

variable {db after : Db} {id : ℕ} {row : Row} {actor : Actor} {finished : ℕ → Bool}

/-- `backend_accounts.role` mirrors the assignments: an account with any role is `admin`. -/
def Mirror (accounts : Table ℕ Row) (assignments : ℕ → Finset Role) : Prop :=
  ∀ id, assignments id ≠ ∅ → ∃ row, accounts.lookup id = some row ∧ row.role = .admin

def Db.HasOwner (db : Db) : Prop :=
  ∃ id row, db.accounts.lookup id = some row ∧ db.isOwner id row = true

/-- The roles of an account, none without it. -/
def Db.rolesOf (db : Db) (id : ℕ) : Finset Role :=
  match db.accounts.lookup id with
  | none => ∅
  | some row => db.roles id row

/-! Owners as they are counted. -/

theorem owners_pos : 0 < db.owners ↔ db.HasOwner := by
  rw [Db.owners, List.length_pos_iff_exists_mem]
  constructor
  · rintro ⟨⟨id, row⟩, held⟩
    rw [List.mem_filter, Table.mem_rows_iff] at held
    exact ⟨id, row, held.1, held.2⟩
  · rintro ⟨id, row, found, owner⟩
    exact ⟨(id, row), List.mem_filter.mpr ⟨Table.mem_rows_iff.mpr found, owner⟩⟩

/-- Of two owners one is not the given account. -/
theorem other_owner (several : ¬ db.owners ≤ 1) (id : ℕ) :
    ∃ other row, other ≠ id ∧ db.accounts.lookup other = some row ∧
      db.isOwner other row = true := by
  by_contra alone
  apply several
  rw [Db.owners]
  have distinct : ((db.accounts.rows.filter fun row => db.isOwner row.1 row.2).map
      Prod.fst).Nodup :=
    List.Nodup.sublist (List.filter_sublist.map _) db.accounts.rows_keys_nodup
  have only : ∀ key ∈ (db.accounts.rows.filter fun row => db.isOwner row.1 row.2).map Prod.fst,
      key = id := by
    intro key held
    obtain ⟨⟨other, row⟩, member, rfl⟩ := List.mem_map.mp held
    rw [List.mem_filter, Table.mem_rows_iff] at member
    by_contra apart
    exact alone ⟨other, row, apart, member.1, member.2⟩
  rw [← List.length_map (f := Prod.fst)]
  generalize (db.accounts.rows.filter fun row => db.isOwner row.1 row.2).map Prod.fst = keys
    at distinct only
  match keys, distinct, only with
  | [], _, _ => exact Nat.zero_le 1
  | [_], _, _ => exact le_refl 1
  | a :: b :: _, distinct, only =>
    rw [List.nodup_cons] at distinct
    have first := only a List.mem_cons_self
    have second := only b (List.mem_cons_of_mem a List.mem_cons_self)
    exact absurd (List.mem_cons.mpr (.inl (first.trans second.symm))) distinct.1

theorem roles_member (member : row.role = .member) : db.roles id row = ∅ := by
  rw [Db.roles, Db.accountRoles, if_pos (by rw [member]; decide), effectiveRoles]

theorem roles_admin (admin : row.role = .admin) :
    Role.owner ∈ db.roles id row ↔ Role.owner ∈ db.assignments id ∨ db.assignments id = ∅ := by
  rw [Db.roles, Db.accountRoles, if_neg (by rw [admin]; decide)]
  by_cases bare : db.assignments id = ∅
  · simp [effectiveRoles, bare, admin]
  · simp [effectiveRoles, bare]

/-- With the mirror, a counted owner is active staff with the owner's permissions. -/
theorem isOwner_iff (mirror : Mirror db.accounts db.assignments)
    (found : db.accounts.lookup id = some row) :
    db.isOwner id row = true ↔
      row.status = .approved ∧ row.role = .admin ∧ Role.owner ∈ db.roles id row := by
  rw [Db.isOwner, Bool.and_eq_true, decide_eq_true_iff, Bool.or_eq_true, Bool.and_eq_true,
    decide_eq_true_iff, decide_eq_true_iff, decide_eq_true_iff]
  constructor
  · rintro ⟨approved, assigned | ⟨admin, bare⟩⟩
    · obtain ⟨row', same, admin⟩ := mirror id (Finset.ne_empty_of_mem assigned)
      cases found.symm.trans same
      exact ⟨approved, admin, (roles_admin admin).mpr (.inl assigned)⟩
    · exact ⟨approved, admin, (roles_admin admin).mpr (.inr bare)⟩
  · rintro ⟨approved, admin, held⟩
    refine ⟨approved, ?_⟩
    rcases (roles_admin admin).mp held with assigned | bare
    · exact .inl assigned
    · exact .inr ⟨admin, bare⟩

/-! Commands that leave the roles alone and disable members at most. -/

structure Calm (db after : Db) : Prop where
  assignments : after.assignments = db.assignments
  kept : ∀ id row, db.accounts.lookup id = some row → ∃ row', after.accounts.lookup id = some row' ∧
    row'.role = row.role ∧ (row'.status = row.status ∨ row.role = .member)
  fresh : ∀ id row, after.accounts.lookup id = some row → db.accounts.lookup id = none →
    row.role = .member

theorem Calm.refl (db : Db) : Calm db db :=
  { assignments := rfl
    kept := fun _ row found => ⟨row, found, rfl, .inl rfl⟩
    fresh := fun _ _ found missing => nomatch found.symm.trans missing }

theorem Calm.trans {middle : Db} (first : Calm db middle) (second : Calm middle after) :
    Calm db after := by
  constructor
  · rw [second.assignments, first.assignments]
  · intro id row found
    obtain ⟨row', found', role, status⟩ := first.kept id row found
    obtain ⟨row'', found'', role', status'⟩ := second.kept id row' found'
    refine ⟨row'', found'', role'.trans role, ?_⟩
    rw [role] at status'
    rcases status' with same | member
    · rw [same]
      exact status
    · exact .inr member
  · intro id row found missing
    cases middle' : middle.accounts.lookup id with
    | none => exact second.fresh id row found middle'
    | some row' =>
      obtain ⟨row'', found'', role, _⟩ := second.kept id row' middle'
      cases found.symm.trans found''
      exact role.trans (first.fresh id row' middle' missing)

/-- Neither accounts nor assignments change. -/
theorem calm_of_eq (accounts : after.accounts = db.accounts)
    (assignments : after.assignments = db.assignments) : Calm db after :=
  { assignments := assignments
    kept := fun _ row found => ⟨row, by rw [accounts]; exact found, rfl, .inl rfl⟩
    fresh := fun _ _ found missing => by
      rw [accounts] at found
      exact nomatch found.symm.trans missing }

theorem Calm.onto {middle : Db} (calm : Calm middle after) (accounts : middle.accounts = db.accounts)
    (assignments : middle.assignments = db.assignments) : Calm db after :=
  (calm_of_eq accounts assignments).trans calm

/-- One account changes, not in its role, and in its status only if it is a member's. -/
theorem calm_alter {f : Row → Row} (accounts : after.accounts = db.accounts.alter id f)
    (assignments : after.assignments = db.assignments) (role : ∀ row, (f row).role = row.role)
    (status : ∀ row, db.accounts.lookup id = some row →
      (f row).status = row.status ∨ row.role = .member) : Calm db after := by
  refine ⟨assignments, ?_, ?_⟩
  · intro other row found
    rw [accounts, Table.lookup_alter]
    by_cases same : other = id
    · subst same
      rw [if_pos rfl, found]
      exact ⟨_, rfl, role row, status row found⟩
    · rw [if_neg same]
      exact ⟨row, found, rfl, .inl rfl⟩
  · intro other row found missing
    rw [accounts, Table.lookup_alter] at found
    by_cases same : other = id
    · subst same
      rw [if_pos rfl, missing] at found
      cases found
    · rw [if_neg same, missing] at found
      cases found

theorem calm_bump : Calm db (db.bump id) :=
  calm_alter rfl rfl (fun _ => rfl) fun _ _ => .inl rfl

theorem calm_begin (member : ∀ row, db.accounts.lookup id = some row → row.role = .member) :
    Calm db (db.begin id) :=
  calm_alter rfl rfl (fun _ => rfl) fun row found => .inr (member row found)

theorem calm_complete : Calm db (db.complete id) :=
  calm_alter rfl rfl (fun _ => rfl) fun _ _ => .inl rfl

theorem calm_settle : Calm db (db.settle finished) := by
  rw [Db.settle]
  generalize db.deletions.rows.filter _ = deletions
  induction deletions generalizing db with
  | nil => exact .refl db
  | cons deletion rest ih => exact calm_complete.trans ih

theorem calm_join {registered : Bool} (ok : db.join id registered = .ok after) : Calm db after := by
  rw [Db.join] at ok
  split at ok
  · cases ok
  · next missing =>
    rw [Option.not_isSome_iff_eq_none] at missing
    cases ok
    refine ⟨rfl, ?_, ?_⟩
    · intro other row found
      refine ⟨row, ?_, rfl, .inl rfl⟩
      rw [Table.lookup_put_ne]
      · exact found
      · rintro rfl
        exact nomatch found.symm.trans missing
    · intro other row found none
      rw [Table.lookup_put] at found
      split at found
      · cases found
        rfl
      · exact nomatch found.symm.trans none

theorem calm_deleteProfile {profile : ℕ} (ok : db.deleteProfile actor profile finished = .ok after) :
    Calm db after := by
  rw [Db.deleteProfile] at ok
  simp only [bind, Except.bind, deny] at ok
  split at ok
  · cases ok
  · split at ok
    · next owner held =>
      split at ok
      · cases ok
      · split at ok
        · cases ok
        · next guarded =>
          cases ok
          refine Calm.trans ?_ calm_settle
          cases owner with
          | none => exact calm_of_eq rfl rfl
          | some account =>
            refine Calm.onto (calm_begin ?_) rfl rfl
            intro row found
            by_contra staff
            apply guarded
            have admin : row.role = .admin := by
              cases role : row.role with
              | member => exact absurd role staff
              | admin => rfl
            rw [Bool.or_eq_true, Db.isAdminProfile, held]
            right
            simp only [Option.bind_some, id_eq, Option.any_some]
            rw [show db.accounts.lookup account = some row from found, Option.any_some, admin]
            rfl
    · cases ok

theorem calm_merge {main other : ℕ} {keep : Option Side}
    (member : ∀ row, db.accounts.lookup other = some row → row.role = .member)
    (ok : db.merge actor main other keep finished = .ok after) : Calm db after := by
  have moved : (db.moveTelegram main other).accounts = db.accounts ∧
      (db.moveTelegram main other).assignments = db.assignments := by
    rw [Db.moveTelegram]
    split
    · exact ⟨rfl, rfl⟩
    · exact ⟨rfl, rfl⟩
  have ends {begun : Db} (accounts : begun.accounts = db.accounts)
      (assignments : begun.assignments = db.assignments) :
      Calm db ((begun.begin other).settle finished) := by
    refine Calm.onto (Calm.trans (calm_begin ?_) calm_settle) accounts assignments
    rw [accounts]
    exact member
  rw [Db.merge] at ok
  split at ok
  · cases ok
    exact ends moved.1 moved.2
  · exact (calm_deleteProfile ok).onto moved.1 moved.2
  · cases ok
    exact ends moved.1 moved.2

theorem calm_decide {request : ℕ} {approve : Bool} {keep : Option Side}
    (ok : db.decide actor request approve keep finished = .ok after) : Calm db after := by
  rw [Db.decide] at ok
  simp only [bind, Except.bind, deny] at ok
  split at ok
  · cases ok
  split at ok
  · cases ok
  split at ok
  · next merge held =>
    split at ok
    · cases ok
    split at ok
    · cases ok
    split at ok
    · cases ok
      exact calm_of_eq rfl rfl
    split at ok
    · cases ok
    split at ok
    · cases ok
    next other =>
    split at ok
    · cases ok
    split at ok
    · cases ok
    split at ok
    · cases ok
    next merged merges =>
    cases ok
    have waits : Calm db ((db.bump merge.main).bump merge.other) := calm_bump.trans calm_bump
    apply waits.trans
    refine Calm.trans (calm_merge ?_ merges) (calm_of_eq rfl rfl)
    intro row found
    rw [found] at other
    simpa using other
  · cases ok

theorem member_of_withoutAccess (idle : db.withoutAccess id = true)
    (found : db.accounts.lookup id = some row) : row.role = .member := by
  rw [Db.withoutAccess, found] at idle
  simp only [Option.any_some, Bool.and_eq_true, decide_eq_true_eq] at idle
  exact idle.1.1

theorem calm_linkConfirm {link : ℕ} (ok : db.linkConfirm id link finished = .ok after) :
    Calm db after := by
  rw [Db.linkConfirm] at ok
  simp only [bind, Except.bind, deny] at ok
  split at ok
  · next found _ =>
    split at ok
    · cases ok
    split at ok
    · cases ok
    split at ok
    · cases ok
      exact calm_bump.trans (calm_of_eq rfl rfl)
    · next other _ =>
      split at ok
      · cases ok
      · next idle =>
        rw [Bool.not_eq_true, Bool.not_eq_false'] at idle
        cases ok
        apply calm_bump.trans
        let freed : Db := { db.bump id with
          links := (db.bump id).links.keep fun id _ => id ≠ link
          identities := (db.bump id).identities.keep fun key _ => key ≠ ("telegram", found.subject) }
        have member : ∀ row, freed.accounts.lookup other = some row → row.role = .member :=
          fun _ held => member_of_withoutAccess idle held
        have begun : Calm (db.bump id) ((freed.begin other).settle finished) :=
          ((calm_begin member).trans calm_settle).onto rfl rfl
        exact begun.trans (calm_of_eq rfl rfl)
  · cases ok

theorem calm_cleanup : Calm db (db.cleanup id finished) := by
  rw [Db.cleanup]
  split
  · next idle =>
    rw [Bool.and_eq_true, Bool.and_eq_true] at idle
    exact (calm_begin fun row found => member_of_withoutAccess idle.1.2 found).trans calm_settle
  · exact .refl db

/-! What a calm command keeps. -/

theorem Calm.mirror (calm : Calm db after) (mirror : Mirror db.accounts db.assignments) :
    Mirror after.accounts after.assignments := by
  intro id assigned
  rw [calm.assignments] at assigned
  obtain ⟨row, found, admin⟩ := mirror id assigned
  obtain ⟨row', found', role, _⟩ := calm.kept id row found
  exact ⟨row', found', role.trans admin⟩

theorem Calm.hasOwner (calm : Calm db after) (mirror : Mirror db.accounts db.assignments)
    (owned : db.HasOwner) : after.HasOwner := by
  obtain ⟨id, row, found, owner⟩ := owned
  obtain ⟨row', found', role, status⟩ := calm.kept id row found
  refine ⟨id, row', found', ?_⟩
  have same : row'.status = row.status := by
    rcases status with same | member
    · exact same
    · have admin := ((isOwner_iff mirror found).mp owner).2.1
      exact nomatch member.symm.trans admin
  rw [Db.isOwner, calm.assignments, role, same]
  exact owner

theorem Calm.rolesOf (calm : Calm db after) : after.rolesOf id = db.rolesOf id := by
  rw [Db.rolesOf, Db.rolesOf]
  cases found : db.accounts.lookup id with
  | none =>
    cases later : after.accounts.lookup id with
    | none => rfl
    | some row => exact roles_member (calm.fresh id row later found)
  | some row =>
    obtain ⟨row', found', role, _⟩ := calm.kept id row found
    simp only [found', Db.roles, Db.accountRoles, role, calm.assignments]

end Accounts
end NodePlane
