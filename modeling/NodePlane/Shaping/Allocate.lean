import NodePlane.Library.BTreeMap
import Mathlib.Data.List.Range

/-! Class numbers of limited clients: a client keeps its number while it stays limited, and
a new one gets the lowest free number. -/
namespace NodePlane
namespace Shaping
open Library

def defaultClass : ℕ := 0xffff

/-- Highest class a limited client can take; `defaultClass` is reserved. -/
def maxClass : ℕ := defaultClass - 1

/-- Limits of one client in kbit/s; 0 leaves that direction unlimited. -/
structure Rate where
  upKbit : ℕ
  downKbit : ℕ
  deriving DecidableEq, Repr

inductive ShapeError
  | unsupported (detail : String)
  | failed (detail : String)
  deriving DecidableEq, Repr

/-- The lowest number from `next` on that is not used, within `fuel` steps. -/
def firstFree (used : List ℕ) : ℕ → ℕ → ℕ
  | 0, next => next
  | fuel + 1, next => if next ∈ used then firstFree used fuel (next + 1) else next

/-- The numbers, the used ones, the names that got one, and where the search goes on. -/
structure Allocation where
  numbers : BTreeMap String ℕ
  used : List ℕ
  fresh : List String
  next : ℕ

def allocateAll : List String → Allocation → Allocation × Except ShapeError Unit
  | [], allocation => (allocation, .ok ())
  | name :: rest, allocation =>
    if allocation.numbers.contains name then
      allocateAll rest allocation
    else
      let next := firstFree allocation.used allocation.used.length allocation.next
      if maxClass < next then
        ({ allocation with next := next }, .error (.failed "too many limited clients"))
      else
        allocateAll rest
          ⟨allocation.numbers.insert name next, next :: allocation.used,
            allocation.fresh ++ [name], next⟩

/-- Keeps the numbers of `names` that have one and gives new names the lowest free numbers;
the others are released. The numbers given out before a failure stay. -/
def allocate (numbers : BTreeMap String ℕ) (names : List String) :
    BTreeMap String ℕ × Except ShapeError (List String) :=
  let kept := numbers.filter fun name _ => names.contains name
  let done := allocateAll names ⟨kept, kept.toList.map Prod.snd, [], 1⟩
  (done.1.numbers, done.2.map fun _ => done.1.fresh)

theorem firstFree_full {used : List ℕ} (fuel next : ℕ) (taken : firstFree used fuel next ∈ used) :
    List.range' next (fuel + 1) ⊆ used := by
  induction fuel generalizing next with
  | zero =>
    intro n member
    rw [List.mem_range'_1] at member
    rwa [show n = next by omega]
  | succ fuel ih =>
    rw [firstFree] at taken
    split at taken
    next held =>
      rw [List.range'_succ]
      exact List.cons_subset.mpr ⟨held, ih (next + 1) taken⟩
    next free => exact absurd taken free

theorem firstFree_unused (used : List ℕ) (next : ℕ) : firstFree used used.length next ∉ used := by
  intro taken
  have full := firstFree_full used.length next taken
  have longer := (List.subperm_of_subset List.nodup_range' full).length_le
  rw [List.length_range'] at longer
  omega

/-- No two names share a number. -/
def Distinct (numbers : BTreeMap String ℕ) : Prop :=
  ∀ (a b : String) (n : ℕ), numbers[a]? = some n → numbers[b]? = some n → a = b

/-- Numbers that are told apart, and all used. -/
structure Allocation.Sound (allocation : Allocation) : Prop where
  distinct : Distinct allocation.numbers
  used : ∀ (name : String) (n : ℕ), allocation.numbers[name]? = some n → n ∈ allocation.used

/-- What the walk over `names` makes of `start`. -/
structure Allocated (names : List String) (start done : Allocation) : Prop where
  sound : done.Sound
  kept : ∀ (name : String) (n : ℕ), start.numbers[name]? = some n → done.numbers[name]? = some n
  given : ∀ (name : String) (n : ℕ), done.numbers[name]? = some n →
    start.numbers[name]? = some n ∨ name ∈ done.fresh ∧ name ∈ names
  fresh : ∀ name ∈ start.fresh, name ∈ done.fresh

theorem allocateAll_allocated (names : List String) (start : Allocation) (sound : start.Sound) :
    Allocated names start (allocateAll names start).1 ∧
      ((allocateAll names start).2 = .ok () → ∀ name ∈ names,
        name ∈ (allocateAll names start).1.numbers) := by
  induction names generalizing start with
  | nil => exact ⟨⟨sound, fun _ _ h => h, fun _ _ h => .inl h, fun _ h => h⟩,
      fun _ name held => absurd held List.not_mem_nil⟩
  | cons name rest ih =>
    rw [allocateAll]
    split
    next known =>
      obtain ⟨done, all⟩ := ih start sound
      refine ⟨⟨done.sound, done.kept, ?_, done.fresh⟩, ?_⟩
      · intro other n row
        exact (done.given other n row).imp_right fun new => ⟨new.1, List.mem_cons_of_mem _ new.2⟩
      · intro ok other member
        rcases List.mem_cons.mp member with rfl | member
        · obtain ⟨n, row⟩ := Option.isSome_iff_exists.mp
            (Std.ExtTreeMap.mem_iff_isSome_getElem?.mp (Std.ExtTreeMap.contains_iff_mem.mp known))
          exact Std.ExtTreeMap.mem_iff_isSome_getElem?.mpr (by rw [done.kept other n row]; rfl)
        · exact all ok other member
    next unknown =>
      dsimp only
      split
      · exact ⟨⟨⟨sound.distinct, sound.used⟩, fun _ _ h => h, fun _ _ h => .inl h, fun _ h => h⟩,
          fun ok => nomatch ok⟩
      · have missing : start.numbers[name]? = none :=
          Std.ExtTreeMap.getElem?_eq_none fun held => unknown (Std.ExtTreeMap.contains_iff_mem.mpr held)
        have free := firstFree_unused start.used start.next
        generalize firstFree start.used start.used.length start.next = next at free
        have one : Allocation.Sound ⟨start.numbers.insert name next, next :: start.used,
            start.fresh ++ [name], next⟩ := by
          constructor
          · intro a b n first second
            rw [BTreeMap.get_insert] at first second
            split at first
            next here =>
              split at second
              next there => rw [← here, ← there]
              next apart => exact absurd (sound.used b n second) (by rwa [← Option.some.inj first])
            next apart =>
              split at second
              next there => exact absurd (sound.used a n first) (by rwa [← Option.some.inj second])
              next other => exact sound.distinct a b n first second
          · intro a n row
            rw [BTreeMap.get_insert] at row
            split at row
            · rw [← Option.some.inj row]
              exact List.mem_cons_self
            · exact List.mem_cons_of_mem _ (sound.used a n row)
        obtain ⟨done, all⟩ := ih _ one
        have named : name ∈ (allocateAll rest ⟨start.numbers.insert name next, next :: start.used,
            start.fresh ++ [name], next⟩).1.numbers := by
          rw [Std.ExtTreeMap.mem_iff_isSome_getElem?,
            done.kept name next (by rw [BTreeMap.get_insert, if_pos rfl])]
          rfl
        refine ⟨⟨done.sound, ?_, ?_, ?_⟩, ?_⟩
        · intro other n row
          apply done.kept other n
          rw [BTreeMap.get_insert]
          split
          next same =>
            rw [← same, missing] at row
            cases row
          · exact row
        · intro other n row
          rcases done.given other n row with old | new
          · rw [BTreeMap.get_insert] at old
            split at old
            next same =>
              rw [← same]
              exact .inr ⟨done.fresh name (List.mem_append_right _ List.mem_cons_self),
                List.mem_cons_self⟩
            · exact .inl old
          · exact .inr ⟨new.1, List.mem_cons_of_mem _ new.2⟩
        · exact fun other member => done.fresh other (List.mem_append_left _ member)
        · intro ok other member
          rcases List.mem_cons.mp member with rfl | member
          · exact named
          · exact all ok other member

/-- Numbers stay apart; who keeps a place keeps its number, and the others are told. -/
theorem allocate_numbers {numbers : BTreeMap String ℕ} (distinct : Distinct numbers)
    (names : List String) :
    Distinct (allocate numbers names).1 ∧
      (∀ name ∈ (allocate numbers names).1, name ∈ names) ∧
      ∀ fresh, (allocate numbers names).2 = .ok fresh →
        (∀ name ∈ names, name ∈ (allocate numbers names).1) ∧
        ∀ (name : String) (n : ℕ), (allocate numbers names).1[name]? = some n →
          numbers[name]? = some n ∨ name ∈ fresh := by
  have start : Allocation.Sound ⟨numbers.filter fun name _ => names.contains name,
      (numbers.filter fun name _ => names.contains name).toList.map Prod.snd, [], 1⟩ := by
    constructor
    · intro a b n first second
      rw [BTreeMap.get_filter, Option.filter_eq_some_iff] at first second
      exact distinct a b n first.1 second.1
    · intro name n row
      exact List.mem_map.mpr ⟨(name, n), BTreeMap.mem_toList.mpr row, rfl⟩
  obtain ⟨done, all⟩ := allocateAll_allocated names _ start
  rw [allocate]
  refine ⟨done.sound.distinct, ?_, ?_⟩
  · intro name held
    obtain ⟨n, row⟩ := Option.isSome_iff_exists.mp (Std.ExtTreeMap.mem_iff_isSome_getElem?.mp held)
    rcases done.given name n row with old | new
    · rw [BTreeMap.get_filter, Option.filter_eq_some_iff] at old
      simpa using old.2
    · exact new.2
  · intro fresh ok
    dsimp only at ok ⊢
    generalize allocateAll names _ = walked at done all ok
    obtain ⟨allocation, result⟩ := walked
    cases result with
    | error err => cases ok
    | ok =>
      refine ⟨all rfl, fun name n row => ?_⟩
      rcases done.given name n row with old | new
      · rw [BTreeMap.get_filter, Option.filter_eq_some_iff] at old
        exact .inl old.1
      · exact .inr (by rw [← Except.ok.inj ok]; exact new.1)

end Shaping
end NodePlane
