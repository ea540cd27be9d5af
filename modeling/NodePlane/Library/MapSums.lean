import NodePlane.Library.BTreeMap
import NodePlane.Library.Sums

/-! Sums over the values of a map. -/
namespace Library
variable {κ ρ τ : Type} [Ord κ] [Std.TransOrd κ]

/-- The sum of a number over the values. -/
def sumValues (f : ρ → ℕ) (m : BTreeMap κ ρ) : ℕ := sumOf (fun entry => f entry.2) m.toList

/-- The number under a key, zero without one. -/
def valueAt (f : ρ → ℕ) (m : BTreeMap κ ρ) (k : κ) : ℕ := (m[k]?.map f).getD 0

theorem sumOf_add {α : Type} (f g : α → ℕ) (rows : List α) :
    sumOf (fun row => f row + g row) rows = sumOf f rows + sumOf g rows := by
  induction rows with
  | nil => rfl
  | cons row rest ih =>
    rw [sumOf_cons, sumOf_cons, sumOf_cons, ih]
    omega

theorem sumOf_filterMap {α β : Type} (pick : α → Option β) (f : β → ℕ) (rows : List α) :
    sumOf f (rows.filterMap pick) = sumOf (fun row => ((pick row).map f).getD 0) rows := by
  induction rows with
  | nil => rfl
  | cons row rest ih =>
    rw [List.filterMap_cons, sumOf_cons]
    cases picked : pick row with
    | none => rw [ih, Option.map_none, Option.getD_none, Nat.zero_add]
    | some value => rw [sumOf_cons, ih, Option.map_some, Option.getD_some]

@[simp] theorem sumValues_empty (f : ρ → ℕ) : sumValues f (∅ : BTreeMap κ ρ) = 0 := by
  rw [sumValues, Std.ExtTreeMap.toList_eq_nil_iff.mpr rfl, sumOf_nil]

section
variable [Std.LawfulEqOrd κ] {f : ρ → ℕ}

/-- A map whose keys the other one has, summed along the other one. -/
theorem sumOf_valueAt {m : BTreeMap κ ρ} {t : BTreeMap κ τ}
    (covers : ∀ (k : κ) (v : ρ), m[k]? = some v → ∃ w, t[k]? = some w) :
    sumOf (fun entry => valueAt f m entry.1) t.toList = sumValues f m := by
  have keys : sumOf (fun entry => valueAt f m entry.1) t.toList = sumOf (valueAt f m) t.keys := by
    rw [← Std.ExtTreeMap.map_fst_toList_eq_keys, sumOf_map]
    rfl
  have picked : (t.keys.filterMap fun k => m[k]?.map fun v => (k, v)).Perm m.toList := by
    have distinct : t.keys.Nodup := Std.ExtTreeMap.nodup_keys
    rw [List.perm_ext_iff_of_nodup (distinct.filterMap ?_) (BTreeMap.toList_nodup m)]
    · rintro ⟨k, v⟩
      rw [List.mem_filterMap, BTreeMap.mem_toList]
      constructor
      · rintro ⟨j, -, held⟩
        obtain ⟨w, found, same⟩ := Option.map_eq_some_iff.mp held
        cases same
        exact found
      · intro found
        obtain ⟨w, there⟩ := covers k v found
        refine ⟨k, ?_, by rw [found]; rfl⟩
        rw [Std.ExtTreeMap.mem_keys, Std.ExtTreeMap.mem_iff_isSome_getElem?, there]
        rfl
    · intro a b entry first second
      obtain ⟨v, -, rfl⟩ := Option.map_eq_some_iff.mp first
      obtain ⟨w, -, same⟩ := Option.map_eq_some_iff.mp second
      exact (congrArg Prod.fst same).symm
  rw [keys, sumValues, ← sumOf_perm picked, sumOf_filterMap]
  apply sumOf_congr
  intro k _
  rw [valueAt]
  cases m[k]? <;> rfl

variable [DecidableEq κ]

theorem sumValues_insert (m : BTreeMap κ ρ) (k : κ) (v : ρ) :
    sumValues f (m.insert k v) + valueAt f m k = f v + sumValues f m := by
  rw [sumValues, sumOf_perm (BTreeMap.toList_insert m k v), sumOf_cons, valueAt]
  cases found : m[k]? with
  | none =>
    rw [BTreeMap.erase_of_get found]
    rfl
  | some old =>
    rw [sumValues, sumOf_perm (BTreeMap.toList_of_get found), sumOf_cons, Option.map_some,
      Option.getD_some]
    show f v + _ + f old = f v + (f old + _)
    omega

/-- Writes that add to what is there. -/
theorem sumValues_upsertAll {g : κ → τ → Option ρ → ρ} {h : τ → ℕ}
    (adds : ∀ k v known, f (g k v known) = h v + (known.map f).getD 0) (m : BTreeMap κ ρ)
    (t : BTreeMap κ τ) :
    sumValues f (BTreeMap.upsertAll g m t) = sumValues f m + sumValues h t := by
  rw [BTreeMap.upsertAll, Std.ExtTreeMap.foldl_eq_foldl_toList, sumValues.eq_def h]
  generalize t.toList = entries
  induction entries generalizing m with
  | nil => rfl
  | cons entry rest ih =>
    have written := @sumValues_insert _ _ _ _ _ f _ m entry.1 (g entry.1 entry.2 m[entry.1]?)
    rw [adds, ← valueAt] at written
    rw [List.foldl_cons, ih, sumOf_cons]
    omega

end
end Library
