import Mathlib.Data.List.AList

/-! Tables of rows under unique keys: the reads and writes that a database
statement over one table makes. -/
namespace Library

/-- Rows under unique keys; the key list carries its own `Nodup`. -/
abbrev Table (κ ρ : Type) := AList (fun _ : κ => ρ)

namespace Table
variable {κ ρ : Type}

/-- `UPDATE` of every row, keys unchanged. -/
def mapRows (t : Table κ ρ) (f : κ → ρ → ρ) : Table κ ρ where
  entries := t.entries.map fun e => ⟨e.1, f e.1 e.2⟩
  nodupKeys := by
    have h : (t.entries.map fun e => (⟨e.1, f e.1 e.2⟩ : Sigma fun _ : κ => ρ)).keys =
        t.entries.keys := by
      simp [List.keys, Function.comp_def]
    simpa [List.NodupKeys, h] using t.nodupKeys

/-- `DELETE` of the rows outside `p`. -/
def keep (t : Table κ ρ) (p : κ → ρ → Bool) : Table κ ρ where
  entries := t.entries.filter fun e => p e.1 e.2
  nodupKeys := List.NodupKeys.sublist List.filter_sublist t.nodupKeys

/-- `SELECT 1 … WHERE p`. -/
def has (t : Table κ ρ) (p : κ → ρ → Bool) : Bool := t.entries.any fun e => p e.1 e.2

/-- The rows as pairs, in table order. -/
def rows (t : Table κ ρ) : List (κ × ρ) := t.entries.map fun e => (e.1, e.2)

theorem rows_keys_nodup (t : Table κ ρ) : (t.rows.map Prod.fst).Nodup := by
  have h : t.rows.map Prod.fst = t.keys := by
    simp [rows, AList.keys, List.keys, Function.comp_def]
  rw [h]
  exact t.keys_nodup

theorem rows_nodup (t : Table κ ρ) : t.rows.Nodup := List.Nodup.of_map Prod.fst t.rows_keys_nodup

@[simp] theorem has_empty (p : κ → ρ → Bool) : Table.has (∅ : Table κ ρ) p = false := rfl

section Keys
variable [DecidableEq κ]

/-- `INSERT … ON CONFLICT DO UPDATE`: the row of `k`, new or replaced. -/
def put (t : Table κ ρ) (k : κ) (r : ρ) : Table κ ρ := AList.insert k r t

/-- `UPDATE … WHERE key = k`: nothing happens without the row. -/
def alter (t : Table κ ρ) (k : κ) (f : ρ → ρ) : Table κ ρ :=
  match t.lookup k with
  | none => t
  | some r => t.put k (f r)

theorem lookup_put (t : Table κ ρ) (k j : κ) (r : ρ) :
    (t.put k r).lookup j = if j = k then some r else t.lookup j := by
  by_cases h : j = k
  · subst h
    simp [put]
  · simp [put, h, AList.lookup_insert_ne h]

@[simp] theorem lookup_put_self (t : Table κ ρ) (k : κ) (r : ρ) :
    (t.put k r).lookup k = some r := by
  simp [lookup_put]

theorem lookup_put_ne {t : Table κ ρ} {k j : κ} (r : ρ) (h : j ≠ k) :
    (t.put k r).lookup j = t.lookup j := by
  simp [lookup_put, h]

theorem lookup_alter (t : Table κ ρ) (k j : κ) (f : ρ → ρ) :
    (t.alter k f).lookup j = if j = k then (t.lookup k).map f else t.lookup j := by
  unfold alter
  cases found : t.lookup k with
  | none =>
    by_cases h : j = k
    · subst h
      simp [found]
    · simp [h]
  | some r => simp [lookup_put]

theorem lookup_alter_ne {t : Table κ ρ} {k j : κ} (f : ρ → ρ) (h : j ≠ k) :
    (t.alter k f).lookup j = t.lookup j := by
  simp [lookup_alter, h]

theorem mem_entries_iff {t : Table κ ρ} {k : κ} {r : ρ} :
    (⟨k, r⟩ : Sigma fun _ : κ => ρ) ∈ t.entries ↔ t.lookup k = some r :=
  AList.mem_lookup_iff.symm

/-- The rows as an association list. -/
theorem rows_lookup (t : Table κ ρ) (k : κ) : t.rows.lookup k = t.lookup k := by
  show (t.entries.map fun e => (e.1, e.2)).lookup k = t.entries.dlookup k
  induction t.entries with
  | nil => rfl
  | cons e rest ih =>
    obtain ⟨j, r⟩ := e
    rw [List.map_cons, List.lookup_cons, ih]
    by_cases same : k = j
    · subst same
      rw [beq_self_eq_true, List.dlookup_cons_eq]
    · rw [beq_eq_false_iff_ne.mpr same, List.dlookup_cons_ne _ _ same]

theorem mem_rows_iff {t : Table κ ρ} {k : κ} {r : ρ} :
    (k, r) ∈ t.rows ↔ t.lookup k = some r := by
  rw [← mem_entries_iff]
  constructor
  · intro h
    obtain ⟨⟨j, q⟩, hq, same⟩ := List.mem_map.mp h
    cases same
    exact hq
  · intro h
    exact List.mem_map.mpr ⟨⟨k, r⟩, h, rfl⟩

/-- The rows of the other keys. -/
def without (t : Table κ ρ) (k : κ) : List (κ × ρ) := t.rows.filter fun row => row.1 ≠ k

/-- A written row stands before those of the other keys, up to order. -/
theorem rows_put (t : Table κ ρ) (k : κ) (r : ρ) : (t.put k r).rows.Perm ((k, r) :: t.without k) := by
  have fresh : (k, r) ∉ t.without k := fun held => by simpa using (List.mem_filter.mp held).2
  rw [List.perm_ext_iff_of_nodup (t.put k r).rows_nodup
    (List.nodup_cons.mpr ⟨fresh, t.rows_nodup.filter _⟩)]
  rintro ⟨j, q⟩
  rw [mem_rows_iff, lookup_put, List.mem_cons, without, List.mem_filter, mem_rows_iff, Prod.mk.injEq]
  by_cases h : j = k
  · simp [h, eq_comm]
  · simp [h]

theorem rows_of_lookup {t : Table κ ρ} {k : κ} {r : ρ} (found : t.lookup k = some r) :
    t.rows.Perm ((k, r) :: t.without k) := by
  have fresh : (k, r) ∉ t.without k := fun held => by simpa using (List.mem_filter.mp held).2
  rw [List.perm_ext_iff_of_nodup t.rows_nodup
    (List.nodup_cons.mpr ⟨fresh, t.rows_nodup.filter _⟩)]
  rintro ⟨j, q⟩
  rw [mem_rows_iff, List.mem_cons, without, List.mem_filter, mem_rows_iff, Prod.mk.injEq]
  by_cases h : j = k
  · subst h
    simp [found, eq_comm]
  · simp [h]

theorem without_missing {t : Table κ ρ} {k : κ} (missing : t.lookup k = none) :
    t.without k = t.rows := by
  rw [without, List.filter_eq_self]
  rintro ⟨j, q⟩ held
  rw [decide_eq_true_iff]
  intro same
  have row := mem_rows_iff.mp held
  rw [show j = k from same, missing] at row
  cases row

theorem lookup_mapRows (t : Table κ ρ) (f : κ → ρ → ρ) (k : κ) :
    (t.mapRows f).lookup k = (t.lookup k).map (f k) := by
  cases found : t.lookup k with
  | none =>
    rw [AList.lookup_eq_none] at found
    rw [Option.map_none, AList.lookup_eq_none]
    intro h
    apply found
    simpa [AList.mem_keys, AList.keys, List.keys, mapRows, Function.comp_def] using h
  | some r =>
    have row := mem_entries_iff.mpr found
    exact mem_entries_iff.mp (List.mem_map.mpr ⟨_, row, rfl⟩)

theorem lookup_keep {t : Table κ ρ} {p : κ → ρ → Bool} {k : κ} {r : ρ} :
    (t.keep p).lookup k = some r ↔ t.lookup k = some r ∧ p k r = true := by
  rw [← mem_entries_iff, ← mem_entries_iff]
  simp [keep]

theorem has_iff {t : Table κ ρ} {p : κ → ρ → Bool} :
    t.has p = true ↔ ∃ k r, t.lookup k = some r ∧ p k r = true := by
  unfold has
  rw [List.any_eq_true]
  constructor
  · rintro ⟨⟨k, r⟩, row, hp⟩
    exact ⟨k, r, mem_entries_iff.mp row, hp⟩
  · rintro ⟨k, r, row, hp⟩
    exact ⟨⟨k, r⟩, mem_entries_iff.mpr row, hp⟩

theorem has_false_iff {t : Table κ ρ} {p : κ → ρ → Bool} :
    t.has p = false ↔ ∀ k r, t.lookup k = some r → p k r = false := by
  rw [← Bool.not_eq_true, has_iff]
  constructor
  · intro h k r row
    exact Bool.eq_false_iff.mpr fun hp => h ⟨k, r, row, hp⟩
  · rintro h ⟨k, r, row, hp⟩
    simp [h k r row] at hp

/-- No row is lost, and each changes along `le` only. -/
def Grows (le : ρ → ρ → Prop) (t u : Table κ ρ) : Prop :=
  ∀ k r, t.lookup k = some r → ∃ q, u.lookup k = some q ∧ le r q

namespace Grows
variable {le : ρ → ρ → Prop} {t u v : Table κ ρ}

theorem refl (same : ∀ r, le r r) (t : Table κ ρ) : Grows le t t :=
  fun _ r row => ⟨r, row, same r⟩

theorem trans (chain : ∀ {a b c}, le a b → le b c → le a c) (first : Grows le t u)
    (second : Grows le u v) : Grows le t v := by
  intro k r row
  obtain ⟨q, middle, hq⟩ := first k r row
  obtain ⟨w, last, hw⟩ := second k q middle
  exact ⟨w, last, chain hq hw⟩

theorem put (same : ∀ r, le r r) {k : κ} {r : ρ}
    (rises : ∀ old, t.lookup k = some old → le old r) : Grows le t (t.put k r) := by
  intro j q row
  by_cases h : j = k
  · subst h
    exact ⟨r, lookup_put_self t j r, rises q row⟩
  · exact ⟨q, by rw [lookup_put_ne r h, row], same q⟩

theorem alter (same : ∀ r, le r r) {k : κ} {f : ρ → ρ}
    (rises : ∀ old, t.lookup k = some old → le old (f old)) : Grows le t (t.alter k f) := by
  intro j q row
  by_cases h : j = k
  · subst h
    exact ⟨f q, by simp [lookup_alter, row], rises q row⟩
  · exact ⟨q, by rw [lookup_alter_ne f h, row], same q⟩

theorem mapRows {f : κ → ρ → ρ} (rises : ∀ k r, le r (f k r)) : Grows le t (t.mapRows f) := by
  intro k r row
  exact ⟨f k r, by rw [lookup_mapRows, row]; rfl, rises k r⟩

end Grows
end Keys
end Table
end Library
