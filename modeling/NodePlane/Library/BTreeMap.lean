import Std.Data.ExtTreeMap
import Mathlib.Data.List.Nodup
import Mathlib.Data.List.Perm.Basic

/-! Maps walked in key order, over the standard library's ordered maps: writing one
map over another, and the entries of a map up to their order. -/
namespace Library

/-- A map that is walked in ascending key order. -/
abbrev BTreeMap (κ ρ : Type) [Ord κ] := Std.ExtTreeMap κ ρ compare

namespace BTreeMap
variable {κ ρ τ : Type} [Ord κ] [Std.TransOrd κ] [Std.LawfulEqOrd κ]

theorem mem_toList {m : BTreeMap κ ρ} {k : κ} {v : ρ} : (k, v) ∈ m.toList ↔ m[k]? = some v :=
  Std.ExtTreeMap.mem_toList_iff_getElem?_eq_some

theorem get_filter (m : BTreeMap κ ρ) (p : κ → ρ → Bool) (k : κ) :
    (m.filter p)[k]? = m[k]?.filter (p k) :=
  Std.ExtTreeMap.getElem?_filter'

theorem toList_nodup (m : BTreeMap κ ρ) : m.toList.Nodup := by
  have distinct := Std.ExtTreeMap.distinct_keys_toList (t := m)
  refine distinct.imp ?_
  rintro a b apart rfl
  exact apart (by simp)

variable [DecidableEq κ]

theorem get_insert (m : BTreeMap κ ρ) (k j : κ) (v : ρ) :
    (m.insert k v)[j]? = if k = j then some v else m[j]? := by
  simp [Std.ExtTreeMap.getElem?_insert]

theorem get_erase (m : BTreeMap κ ρ) (k j : κ) :
    (m.erase k)[j]? = if k = j then none else m[j]? := by
  simp [Std.ExtTreeMap.getElem?_erase]

/-- A written key stands before the entries of the others, up to order. -/
theorem toList_insert (m : BTreeMap κ ρ) (k : κ) (v : ρ) :
    (m.insert k v).toList.Perm ((k, v) :: (m.erase k).toList) := by
  rw [List.perm_ext_iff_of_nodup (toList_nodup _)]
  · rintro ⟨j, w⟩
    rw [mem_toList, get_insert, List.mem_cons, mem_toList, get_erase, Prod.mk.injEq]
    by_cases h : k = j
    · simp [h, eq_comm]
    · simp [h, Ne.symm h]
  · rw [List.nodup_cons]
    refine ⟨?_, toList_nodup _⟩
    rw [mem_toList, get_erase]
    simp

theorem toList_of_get {m : BTreeMap κ ρ} {k : κ} {v : ρ} (found : m[k]? = some v) :
    m.toList.Perm ((k, v) :: (m.erase k).toList) := by
  have same : m.insert k v = m := by
    apply Std.ExtTreeMap.ext_getElem?
    intro j
    rw [get_insert]
    by_cases h : k = j
    · subst h
      simp [found]
    · simp [h]
  have entries := toList_insert m k v
  rwa [same] at entries

theorem erase_of_get {m : BTreeMap κ ρ} {k : κ} (missing : m[k]? = none) : m.erase k = m := by
  apply Std.ExtTreeMap.ext_getElem?
  intro j
  rw [get_erase]
  by_cases h : k = j
  · subst h
    simp [missing]
  · simp [h]

/-- Writes every entry of `t` into `m`, each from what `m` holds under its key. -/
def upsertAll (g : κ → τ → Option ρ → ρ) (m : BTreeMap κ ρ) (t : BTreeMap κ τ) : BTreeMap κ ρ :=
  t.foldl (fun m k v => m.insert k (g k v m[k]?)) m

theorem get_upserts (g : κ → τ → Option ρ → ρ) (entries : List (κ × τ)) (m : BTreeMap κ ρ)
    (distinct : (entries.map Prod.fst).Nodup) (j : κ) :
    (entries.foldl (fun m e => m.insert e.1 (g e.1 e.2 m[e.1]?)) m)[j]? =
      match entries.find? (fun e => e.1 = j) with
      | none => m[j]?
      | some e => some (g j e.2 m[j]?) := by
  induction entries generalizing m with
  | nil => rfl
  | cons e rest ih =>
    rw [List.map_cons, List.nodup_cons] at distinct
    rw [List.foldl_cons, ih _ distinct.2, List.find?_cons]
    by_cases h : e.1 = j
    · have absent : rest.find? (fun e => decide (e.1 = j)) = none := by
        rw [List.find?_eq_none]
        intro f member same
        apply distinct.1
        rw [h, ← of_decide_eq_true same]
        exact List.mem_map_of_mem member
      simp [h, absent]
    · simp [h, get_insert]

theorem get_inserts (entries : List (κ × ρ)) (distinct : (entries.map Prod.fst).Nodup) (k : κ)
    (v : ρ) :
    (entries.foldl (fun m e => m.insert e.1 e.2) (∅ : BTreeMap κ ρ))[k]? = some v ↔
      (k, v) ∈ entries := by
  have found := get_upserts (fun _ (v : ρ) _ => v) entries ∅ distinct k
  rw [found]
  cases search : entries.find? (fun e => e.1 = k) with
  | none =>
    rw [List.find?_eq_none] at search
    constructor
    · intro row
      simp at row
    · intro member
      exact absurd (search _ member) (by simp)
  | some e =>
    have key : e.1 = k := by simpa using List.find?_some search
    have held := List.mem_of_find?_eq_some search
    subst key
    constructor
    · intro row
      rw [← Option.some.inj row]
      exact held
    · intro member
      exact congrArg some (congrArg Prod.snd (List.inj_on_of_nodup_map distinct held member rfl))

theorem get_upsertAll (g : κ → τ → Option ρ → ρ) (m : BTreeMap κ ρ) (t : BTreeMap κ τ) (j : κ) :
    (upsertAll g m t)[j]? =
      match t[j]? with
      | none => m[j]?
      | some v => some (g j v m[j]?) := by
  have distinct : (t.toList.map Prod.fst).Nodup := by
    rw [Std.ExtTreeMap.map_fst_toList_eq_keys]
    exact Std.ExtTreeMap.nodup_keys
  rw [upsertAll, Std.ExtTreeMap.foldl_eq_foldl_toList, get_upserts g _ _ distinct]
  cases found : t.toList.find? (fun e => decide (e.1 = j)) with
  | none =>
    have missing : t[j]? = none := by
      by_contra held
      obtain ⟨v, row⟩ := Option.ne_none_iff_exists'.mp held
      rw [List.find?_eq_none] at found
      exact found (j, v) (mem_toList.mpr row) (by simp)
    rw [missing]
  | some e =>
    have key : e.1 = j := by simpa using List.find?_some found
    have row : t[j]? = some e.2 := by
      rw [← mem_toList, ← key]
      exact List.mem_of_find?_eq_some found
    rw [row]

end BTreeMap
end Library
