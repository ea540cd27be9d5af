import Mathlib.Data.List.Nodup
import Mathlib.Data.List.Pairwise
import Mathlib.Data.List.Perm.Basic

/-! Items that take up slots, none of which may be taken twice, and two lists paired by a key
of their members. -/
namespace Library

section
variable {ι σ : Type} (slots : ι → List σ)

/-- No slot is taken twice. -/
def Apart (items : List ι) : Prop := (items.flatMap slots).Nodup

variable {slots} {items others : List ι}

theorem Apart.perm (apart : Apart slots items) (same : items.Perm others) : Apart slots others :=
  (same.flatMap_right slots).nodup_iff.mp apart

theorem Apart.sublist (apart : Apart slots others) (part : items.Sublist others) :
    Apart slots items := by
  obtain ⟨-, pairs⟩ := List.nodup_flatMap.mp apart
  refine List.nodup_flatMap.mpr ⟨?_, pairs.sublist part⟩
  exact fun item held => (List.nodup_flatMap.mp apart).1 item (part.subset held)

/-- A slot belongs to one item. -/
theorem Apart.owner (apart : Apart slots items) {a b : ι} (first : a ∈ items) (second : b ∈ items)
    {s : σ} (left : s ∈ slots a) (right : s ∈ slots b) : a = b := by
  by_contra differ
  have symmetric : Std.Symm (Function.onFun List.Disjoint slots) := ⟨fun _ _ disjoint _ one two => disjoint two one⟩
  exact (List.nodup_flatMap.mp apart).2.forall first second differ left right

/-- One more item fits where its slots are free. -/
theorem apart_append_singleton {item : ι} :
    Apart slots (items ++ [item]) ↔
      Apart slots items ∧ (slots item).Nodup ∧
        ∀ other ∈ items, ∀ s ∈ slots item, s ∉ slots other := by
  rw [Apart, List.flatMap_append, List.nodup_append]
  simp only [List.flatMap_cons, List.flatMap_nil, List.append_nil, List.mem_flatMap]
  constructor
  · rintro ⟨apart, nodup, free⟩
    exact ⟨apart, nodup, fun other held s mine theirs => free s ⟨other, held, theirs⟩ s mine rfl⟩
  · rintro ⟨apart, nodup, free⟩
    refine ⟨apart, nodup, ?_⟩
    rintro s ⟨other, held, theirs⟩ t mine rfl
    exact free other held s mine theirs

end

section
variable {α κ τ : Type} [DecidableEq κ] (key : α → κ)

/-- The member of the list under a key. -/
def findKey (list : List α) (k : κ) : Option α := list.find? fun a => key a = k

variable {key}

theorem findKey_some {list : List α} {k : κ} {a : α} (found : findKey key list k = some a) :
    a ∈ list ∧ key a = k :=
  ⟨List.mem_of_find?_eq_some found, by simpa using List.find?_some found⟩

theorem findKey_of_mem {list : List α} (distinct : (list.map key).Nodup) {a : α} (held : a ∈ list) :
    findKey key list (key a) = some a := by
  cases found : findKey key list (key a) with
  | none => exact absurd (List.find?_eq_none.mp found a held) (by simp)
  | some b =>
    obtain ⟨member, same⟩ := findKey_some found
    rw [List.inj_on_of_nodup_map distinct member held same]

/-- The pairs of both lists with one key, walked along either of them. -/
theorem flatMap_findKey_perm (left right : List α) (first : (left.map key).Nodup)
    (second : (right.map key).Nodup) (g : α → α → List τ) :
    (left.flatMap fun a => ((findKey key right (key a)).map (g a)).getD []).Perm
      (right.flatMap fun b => ((findKey key left (key b)).map fun a => g a b).getD []) := by
  have walked : ∀ (list : List α) (f : α → Option (α × α)),
      (list.filterMap f).flatMap (fun p => g p.1 p.2) =
        list.flatMap fun a => ((f a).map fun p => g p.1 p.2).getD [] := by
    intro list f
    induction list with
    | nil => rfl
    | cons a rest ih =>
      rw [List.filterMap_cons, List.flatMap_cons]
      cases f a with
      | none => simpa using ih
      | some p => simp [ih]
  have along := walked left fun a => (findKey key right (key a)).map fun b => (a, b)
  have across := walked right fun b => (findKey key left (key b)).map fun a => (a, b)
  simp only [Option.map_map, Function.comp_def] at along across
  rw [← along, ← across]
  apply List.Perm.flatMap_right
  rw [List.perm_ext_iff_of_nodup]
  · rintro ⟨a, b⟩
    simp only [List.mem_filterMap, Option.map_eq_some_iff, Prod.mk.injEq]
    constructor
    · rintro ⟨c, held, d, found, rfl, rfl⟩
      obtain ⟨member, same⟩ := findKey_some found
      exact ⟨d, member, c, by rw [same]; exact findKey_of_mem first held, rfl, rfl⟩
    · rintro ⟨d, held, c, found, rfl, rfl⟩
      obtain ⟨member, same⟩ := findKey_some found
      exact ⟨c, member, d, by rw [same]; exact findKey_of_mem second held, rfl, rfl⟩
  · refine List.Nodup.filterMap ?_ (List.Nodup.of_map _ first)
    rintro a b ⟨c, d⟩ one two
    simp only [Option.mem_def, Option.map_eq_some_iff, Prod.mk.injEq] at one two
    obtain ⟨_, -, rfl, -⟩ := one
    obtain ⟨_, -, rfl, -⟩ := two
    rfl
  · refine List.Nodup.filterMap ?_ (List.Nodup.of_map _ second)
    rintro a b ⟨c, d⟩ one two
    simp only [Option.mem_def, Option.map_eq_some_iff, Prod.mk.injEq] at one two
    obtain ⟨_, -, -, rfl⟩ := one
    obtain ⟨_, -, -, rfl⟩ := two
    rfl

end

end Library
