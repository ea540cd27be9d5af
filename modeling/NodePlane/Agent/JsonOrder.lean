import NodePlane.Agent.JsonEdit
import Mathlib.Data.List.Perm.Subperm

/-! The members of an object that a parser built ascend by key, so an object with exactly some
keys is told by what they hold. -/
namespace NodePlane
namespace Json

theorem codesBefore_antisymm {as bs : List Char} (first : codesBefore as bs = true)
    (second : codesBefore bs as = true) : as = bs := by
  induction as generalizing bs with
  | nil =>
    cases bs with
    | nil => rfl
    | cons b bs => cases second
  | cons a as ih =>
    cases bs with
    | nil => cases first
    | cons b bs =>
      simp only [codesBefore, Bool.or_eq_true, decide_eq_true_eq, Bool.and_eq_true,
        beq_iff_eq] at first second
      have same : a.toNat = b.toNat := by omega
      have rest : as = bs := by
        apply ih
        · exact (first.resolve_left (by omega)).2
        · exact (second.resolve_left (by omega)).2
      rw [rest, Char.toNat_inj.mp same]

theorem textBefore_antisymm {a b : String} (first : textBefore a b = true)
    (second : textBefore b a = true) : a = b :=
  String.toList_inj.mp (codesBefore_antisymm first second)

/-- Keys as a map keeps them. -/
def Ascending (keys : List String) : Prop :=
  keys.Pairwise fun a b => textBefore a b = true ∧ a ≠ b

instance (keys : List String) : Decidable (Ascending keys) := inferInstanceAs (Decidable (keys.Pairwise _))

theorem Ascending.nodup {keys : List String} (ascending : Ascending keys) : keys.Nodup :=
  List.Pairwise.imp (fun before => before.2) ascending

/-- The keys of a map are in one order only. -/
theorem Ascending.unique {keys others : List String} (ascending : Ascending keys)
    (also : Ascending others) (same : keys.Perm others) : keys = others := by
  have antisymm (a b : String) (_ : a ∈ keys) (_ : b ∈ others) (first : textBefore a b = true)
      (second : textBefore b a = true) : a = b := textBefore_antisymm first second
  apply same.eq_of_pairwise antisymm
  · exact List.Pairwise.imp (fun before => before.1) ascending
  · exact List.Pairwise.imp (fun before => before.1) also

variable {members : List (String × Json)} {keys : List String}

theorem key_mem {key : String} (known : containsKey members key = true) :
    key ∈ members.map Prod.fst := by
  induction members with
  | nil => cases known
  | cons m rest ih =>
    obtain ⟨k, v⟩ := m
    rw [containsKey, lookup_cons] at known
    by_cases same : key = k
    · simp [same]
    · rw [if_neg same] at known
      exact List.mem_cons_of_mem _ (ih known)

/-- A member is what its key looks up. -/
theorem lookup_of_mem {key : String} {v : Json} (nodup : (members.map Prod.fst).Nodup)
    (listed : (key, v) ∈ members) : members.lookup key = some v := by
  induction members with
  | nil => cases listed
  | cons m rest ih =>
    obtain ⟨k, w⟩ := m
    rw [List.map_cons, List.nodup_cons] at nodup
    rw [lookup_cons]
    rcases List.mem_cons.mp listed with now | later
    · cases now
      simp
    · have other : key ≠ k := by
        rintro rfl
        exact nodup.1 (List.mem_map.mpr ⟨(key, v), later, rfl⟩)
      rw [if_neg other]
      exact ih nodup.2 later

/-- Exactly some keys are the keys. -/
theorem only_perm (exact' : only members keys = true) (nodup : keys.Nodup) :
    keys.Perm (members.map Prod.fst) := by
  simp only [only, Bool.and_eq_true, beq_iff_eq, List.all_eq_true] at exact'
  obtain ⟨length, known⟩ := exact'
  have listed : keys ⊆ members.map Prod.fst := fun key has => key_mem (known key has)
  apply (nodup.subperm listed).perm_of_length_le
  simp [length]

/-- An object with exactly the keys `keys`, by what they hold. -/
theorem eq_of_only {order : List String} (ascending : Ascending (members.map Prod.fst))
    (exact' : only members keys = true) (nodup : keys.Nodup) (sorted : Ascending order)
    (same : order.Perm keys) :
    members = order.map fun key => (key, (Json.obj members).field key) := by
  have perm := only_perm exact' nodup
  have ordered : members.map Prod.fst = order :=
    ascending.unique sorted (perm.symm.trans same.symm)
  rw [← ordered, List.map_map]
  conv_lhs => rw [← List.map_id members]
  apply List.map_congr_left
  intro m has
  obtain ⟨key, v⟩ := m
  simp [field, lookup_of_mem ascending.nodup has]

theorem asObject_some {v : Json} (object : v.asObject = some members) : v = .obj members := by
  cases v with
  | obj listed => rw [Option.some.inj object]
  | _ => cases object

theorem asStr_some {v : Json} {text : String} : v.asStr = some text ↔ v = .str text := by
  cases v <;> simp [asStr]

theorem asI64_some {v : Json} {n : Int} (integer : v.asI64 = some n) : v = .int n := by
  cases v with
  | int m =>
    simp only [asI64] at integer
    split_ifs at integer
    rw [Option.some.inj integer]
  | _ => cases integer

end Json
end NodePlane
