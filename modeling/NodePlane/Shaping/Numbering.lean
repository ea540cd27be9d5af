import NodePlane.Shaping.Allocate
import Std.Data.ExtTreeSet

/-! What `allocate` leaves over its whole use. The numbers are told apart and in range, a name
that stays limited keeps its own, a new one gets the lowest free number, and the walk fails
exactly when more names are wanted than there are numbers. -/
namespace NodePlane
namespace Shaping
open Library

/-- The names that are walked: in order, each once. -/
def collected (names : List String) : List String := (Std.ExtTreeSet.ofList names compare).toList

/-- `allocate` as it is called: the names are collected first. -/
def allocateCollected (numbers : BTreeMap String ℕ) (names : List String) :
    BTreeMap String ℕ × Except ShapeError (List String) :=
  allocate numbers (collected names)

/-- The maps that are saved: none, and what a call leaves, also one that failed. -/
inductive Saved : BTreeMap String ℕ → Prop
  | fresh : Saved ∅
  | allocated {numbers : BTreeMap String ℕ} (saved : Saved numbers) (names : List String) :
      Saved (allocateCollected numbers names).1

theorem mem_collected {names : List String} {name : String} :
    name ∈ collected names ↔ name ∈ names := by
  simp [collected]

theorem collected_ordered (names : List String) :
    (collected names).Pairwise fun a b => compare a b = .lt :=
  Std.ExtTreeSet.ordered_toList

theorem collected_nodup (names : List String) : (collected names).Nodup := by
  refine (collected_ordered names).imp ?_
  rintro a b before rfl
  simp at before

/-- Every number the search passes is used. -/
theorem firstFree_passes {used : List ℕ} (fuel : ℕ) {next k : ℕ} (reached : next ≤ k)
    (passed : k < firstFree used fuel next) : k ∈ used := by
  induction fuel generalizing next with
  | zero =>
    rw [firstFree] at passed
    omega
  | succ fuel ih =>
    rw [firstFree] at passed
    split at passed
    next held =>
      by_cases here : k = next
      · rwa [here]
      · exact ih (by omega) passed
    next free => omega

theorem firstFree_from (used : List ℕ) (fuel next : ℕ) : next ≤ firstFree used fuel next := by
  induction fuel generalizing next with
  | zero => exact Nat.le_refl next
  | succ fuel ih =>
    rw [firstFree]
    split
    · have := ih (next + 1)
      omega
    · exact Nat.le_refl next

/-- Every number below `n` is one that was kept or the number of a name before `name`. -/
def LowestFor (kept numbers : BTreeMap String ℕ) (name : String) (n : ℕ) : Prop :=
  ∀ k, 1 ≤ k → k < n →
    ∃ other : String, numbers[other]? = some k ∧ (kept[other]? = some k ∨ compare other name = .lt)

/-- Where the walk is after the names `seen`, from the numbers `kept`. -/
structure Allocation.Filled (kept : BTreeMap String ℕ) (seen : List String)
    (allocation : Allocation) : Prop where
  apart : Distinct allocation.numbers
  used : ∀ n, n ∈ allocation.used ↔ ∃ name : String, allocation.numbers[name]? = some n
  range : ∀ (name : String) (n : ℕ), allocation.numbers[name]? = some n → 1 ≤ n ∧ n ≤ maxClass
  positive : 1 ≤ allocation.next
  below : ∀ k, 1 ≤ k → k < allocation.next → k ∈ allocation.used
  keeps : ∀ (name : String) (n : ℕ), kept[name]? = some n → allocation.numbers[name]? = some n
  given : ∀ (name : String) (n : ℕ), allocation.numbers[name]? = some n →
    kept[name]? = some n ∨
      name ∈ seen ∧ kept[name]? = none ∧ LowestFor kept allocation.numbers name n
  numbered : ∀ name ∈ seen, ∃ n, allocation.numbers[name]? = some n
  fresh : ∀ name, name ∈ allocation.fresh ↔ name ∈ seen ∧ kept[name]? = none

namespace Allocation.Filled
variable {kept : BTreeMap String ℕ} {seen : List String} {allocation : Allocation} {name : String}

/-- A number stands for every one below the search's result. -/
theorem passed (filled : allocation.Filled kept seen) (k : ℕ) (positive : 1 ≤ k)
    (below : k < firstFree allocation.used allocation.used.length allocation.next) :
    k ∈ allocation.used := by
  by_cases early : k < allocation.next
  · exact filled.below k positive early
  · exact firstFree_passes _ (by omega) below

/-- A name that has a number is passed over; it had the number from the start. -/
theorem pass (filled : allocation.Filled kept seen) (apart : name ∉ seen) {n : ℕ}
    (known : allocation.numbers[name]? = some n) : allocation.Filled kept (seen ++ [name]) := by
  have held : kept[name]? = some n :=
    (filled.given name n known).resolve_right fun new => apart new.1
  constructor
  · exact filled.apart
  · exact filled.used
  · exact filled.range
  · exact filled.positive
  · exact filled.below
  · exact filled.keeps
  · intro other m row
    refine (filled.given other m row).imp_right ?_
    intro new
    exact ⟨List.mem_append_left _ new.1, new.2⟩
  · intro other member
    rcases List.mem_append.mp member with old | here
    · exact filled.numbered other old
    · rw [List.mem_singleton.mp here]
      exact ⟨n, known⟩
  · intro other
    rw [filled.fresh, List.mem_append, List.mem_singleton]
    constructor
    · intro new
      exact ⟨.inl new.1, new.2⟩
    · rintro ⟨old | rfl, missing⟩
      · exact ⟨old, missing⟩
      · rw [held] at missing
        cases missing

/-- A search that runs past the last number leaves the numbers as they are. -/
theorem searched (filled : allocation.Filled kept seen) :
    ({ allocation with
        next := firstFree allocation.used allocation.used.length allocation.next } :
      Allocation).Filled kept seen where
  apart := filled.apart
  used := filled.used
  range := filled.range
  positive := Nat.le_trans filled.positive (firstFree_from _ _ _)
  below := filled.passed
  keeps := filled.keeps
  given := filled.given
  numbered := filled.numbered
  fresh := filled.fresh

/-- A new name gets the number the search ends at. -/
theorem give (filled : allocation.Filled kept seen)
    (before : ∀ other ∈ seen, compare other name = .lt) (apart : name ∉ seen)
    (missing : allocation.numbers[name]? = none) {next : ℕ}
    (found : next = firstFree allocation.used allocation.used.length allocation.next)
    (fits : next ≤ maxClass) :
    (Allocation.mk (allocation.numbers.insert name next) (next :: allocation.used)
      (allocation.fresh ++ [name]) next).Filled kept (seen ++ [name]) := by
  have free : next ∉ allocation.used := by
    rw [found]
    exact firstFree_unused _ _
  have start : allocation.next ≤ next := by
    rw [found]
    exact firstFree_from _ _ _
  have positive : 1 ≤ next := Nat.le_trans filled.positive start
  have new : kept[name]? = none := by
    cases held : kept[name]? with
    | none => rfl
    | some n =>
      rw [filled.keeps name n held] at missing
      cases missing
  have stays {other : String} {n : ℕ} (row : allocation.numbers[other]? = some n) :
      (allocation.numbers.insert name next)[other]? = some n := by
    rw [BTreeMap.get_insert]
    split
    next same =>
      rw [← same, missing] at row
      cases row
    next => exact row
  constructor
  · intro a b n first second
    rw [BTreeMap.get_insert] at first second
    split at first
    next here =>
      split at second
      next there => rw [← here, ← there]
      next =>
        rw [← Option.some.inj first] at second
        exact absurd ((filled.used next).mpr ⟨b, second⟩) free
    next =>
      split at second
      next =>
        rw [← Option.some.inj second] at first
        exact absurd ((filled.used next).mpr ⟨a, first⟩) free
      next => exact filled.apart a b n first second
  · intro n
    rw [List.mem_cons, filled.used]
    constructor
    · rintro (rfl | ⟨other, row⟩)
      · exact ⟨name, by rw [BTreeMap.get_insert, if_pos rfl]⟩
      · exact ⟨other, stays row⟩
    · rintro ⟨other, row⟩
      rw [BTreeMap.get_insert] at row
      split at row
      · exact .inl (Option.some.inj row).symm
      · exact .inr ⟨other, row⟩
  · intro other n row
    rw [BTreeMap.get_insert] at row
    split at row
    · rw [← Option.some.inj row]
      exact ⟨positive, fits⟩
    · exact filled.range other n row
  · exact positive
  · intro k low high
    apply List.mem_cons_of_mem
    apply filled.passed k low
    rwa [← found]
  · intro other n row
    exact stays (filled.keeps other n row)
  · intro other n row
    rw [BTreeMap.get_insert] at row
    split at row
    next same =>
      subst same
      refine .inr ⟨List.mem_append_right _ List.mem_cons_self, new, ?_⟩
      intro k low high
      rw [← Option.some.inj row, found] at high
      obtain ⟨owner, number⟩ := (filled.used k).mp (filled.passed k low high)
      refine ⟨owner, stays number, ?_⟩
      exact (filled.given owner k number).imp_right fun given => before owner given.1
    next =>
      refine (filled.given other n row).imp_right ?_
      rintro ⟨member, unkept, lowest⟩
      refine ⟨List.mem_append_left _ member, unkept, ?_⟩
      intro k low high
      obtain ⟨owner, number, reason⟩ := lowest k low high
      exact ⟨owner, stays number, reason⟩
  · intro other member
    rcases List.mem_append.mp member with old | here
    · obtain ⟨n, row⟩ := filled.numbered other old
      exact ⟨n, stays row⟩
    · rw [List.mem_singleton.mp here]
      exact ⟨next, by rw [BTreeMap.get_insert, if_pos rfl]⟩
  · intro other
    rw [List.mem_append, List.mem_append, filled.fresh, List.mem_singleton]
    constructor
    · rintro (old | rfl)
      · exact ⟨.inl old.1, old.2⟩
      · exact ⟨.inr rfl, new⟩
    · rintro ⟨old | rfl, unkept⟩
      · exact .inl ⟨old, unkept⟩
      · exact .inr rfl

end Allocation.Filled

/-- What the walk over `rest` leaves: all numbered, or every number given out and a name left. -/
structure Walked (kept : BTreeMap String ℕ) (names : List String)
    (done : Allocation × Except ShapeError Unit) : Prop where
  filled : ∃ seen, seen ⊆ names ∧ done.1.Filled kept seen
  all : done.2 = .ok () → done.1.Filled kept names
  full : ∀ err, done.2 = .error err →
    (∃ name ∈ names, done.1.numbers[name]? = none) ∧
      ∀ k, 1 ≤ k → k ≤ maxClass → k ∈ done.1.used

theorem allocateAll_walked {kept : BTreeMap String ℕ} (rest seen : List String)
    {allocation : Allocation} (filled : allocation.Filled kept seen)
    (ordered : (seen ++ rest).Pairwise fun a b => compare a b = .lt) :
    Walked kept (seen ++ rest) (allocateAll rest allocation) := by
  induction rest generalizing seen allocation with
  | nil =>
    rw [List.append_nil]
    refine ⟨⟨seen, List.Subset.refl seen, filled⟩, fun _ => filled, ?_⟩
    intro err failed
    cases failed
  | cons name rest ih =>
    have before : ∀ other ∈ seen, compare other name = .lt := fun other member =>
      (List.pairwise_append.mp ordered).2.2 other member name List.mem_cons_self
    have apart : name ∉ seen := by
      intro member
      have := before name member
      simp at this
    have onward : (seen ++ [name]) ++ rest = seen ++ name :: rest := by simp
    rw [← onward] at ordered ⊢
    rw [allocateAll]
    split
    next known =>
      obtain ⟨n, row⟩ := Option.isSome_iff_exists.mp
        (Std.ExtTreeMap.mem_iff_isSome_getElem?.mp (Std.ExtTreeMap.contains_iff_mem.mp known))
      exact ih _ (filled.pass apart row) ordered
    next unknown =>
      have missing : allocation.numbers[name]? = none :=
        Std.ExtTreeMap.getElem?_eq_none fun held => unknown (Std.ExtTreeMap.contains_iff_mem.mpr held)
      dsimp only
      split
      next full =>
        constructor
        · exact ⟨seen, by simp, filled.searched⟩
        · intro ok
          cases ok
        · intro err _
          refine ⟨⟨name, by simp, missing⟩, ?_⟩
          intro k low high
          exact filled.passed k low (by omega)
      next fits =>
        exact ih _ (filled.give before apart missing rfl (by omega)) ordered

/-- Numbers that are told apart and in range. -/
structure InRange (numbers : BTreeMap String ℕ) : Prop where
  apart : Distinct numbers
  range : ∀ (name : String) (n : ℕ), numbers[name]? = some n → 1 ≤ n ∧ n ≤ maxClass

/-- The walk starts from the numbers of the names that stay. -/
theorem InRange.start {numbers : BTreeMap String ℕ} (sound : InRange numbers) (names : List String) :
    (Allocation.mk (numbers.filter fun name _ => names.contains name)
      ((numbers.filter fun name _ => names.contains name).toList.map Prod.snd) [] 1).Filled
      (numbers.filter fun name _ => names.contains name) [] := by
  have row {name : String} {n : ℕ}
      (held : (numbers.filter fun name _ => names.contains name)[name]? = some n) :
      numbers[name]? = some n := by
    rw [BTreeMap.get_filter, Option.filter_eq_some_iff] at held
    exact held.1
  constructor
  · intro a b n first second
    exact sound.apart a b n (row first) (row second)
  · intro n
    rw [List.mem_map]
    constructor
    · rintro ⟨⟨name, m⟩, held, rfl⟩
      exact ⟨name, BTreeMap.mem_toList.mp held⟩
    · rintro ⟨name, held⟩
      exact ⟨(name, n), BTreeMap.mem_toList.mpr held, rfl⟩
  · intro name n held
    exact sound.range name n (row held)
  · exact Nat.le_refl 1
  · intro k low high
    change k < 1 at high
    omega
  · intro name n held
    exact held
  · intro name n held
    exact .inl held
  · intro name member
    cases member
  · intro name
    simp

/-- Names that all have a number of their own are not more than there are numbers. -/
theorem names_fit {numbers : BTreeMap String ℕ} (sound : InRange numbers) {names : List String}
    (nodup : names.Nodup) (numbered : ∀ name ∈ names, ∃ n, numbers[name]? = some n) :
    names.length ≤ maxClass := by
  have own : (names.map fun name => (numbers[name]?).getD 0).Nodup := by
    rw [List.nodup_map_iff_inj_on nodup]
    intro a first b second same
    obtain ⟨n, row⟩ := numbered a first
    obtain ⟨m, other⟩ := numbered b second
    rw [row, other, Option.getD_some, Option.getD_some] at same
    rw [← same] at other
    exact sound.apart a b n row other
  have inside : (names.map fun name => (numbers[name]?).getD 0) ⊆ List.range' 1 maxClass := by
    intro n member
    obtain ⟨name, listed, rfl⟩ := List.mem_map.mp member
    obtain ⟨n, row⟩ := numbered name listed
    rw [row, Option.getD_some, List.mem_range'_1]
    have := sound.range name n row
    omega
  simpa using (List.subperm_of_subset own inside).length_le

/-- When every number is given out to names of the list and one is left, the list is too long. -/
theorem names_overflow {numbers : BTreeMap String ℕ} {names : List String} {left : String}
    (listed : left ∈ names) (missing : numbers[left]? = none)
    (named : ∀ (name : String) (n : ℕ), numbers[name]? = some n → name ∈ names)
    (full : ∀ k, 1 ≤ k → k ≤ maxClass → ∃ name : String, numbers[name]? = some k) :
    maxClass < names.length := by
  have many : maxClass ≤ numbers.toList.length := by
    have inside : List.range' 1 maxClass ⊆ numbers.toList.map Prod.snd := by
      intro k member
      rw [List.mem_range'_1] at member
      obtain ⟨name, row⟩ := full k member.1 (by omega)
      exact List.mem_map.mpr ⟨(name, k), BTreeMap.mem_toList.mpr row, rfl⟩
    simpa using (List.subperm_of_subset List.nodup_range' inside).length_le
  have apart : (left :: numbers.toList.map Prod.fst).Nodup := by
    rw [List.nodup_cons]
    constructor
    · intro member
      obtain ⟨⟨name, n⟩, held, same⟩ := List.mem_map.mp member
      cases same
      rw [BTreeMap.mem_toList.mp held] at missing
      cases missing
    · rw [Std.ExtTreeMap.map_fst_toList_eq_keys]
      exact Std.ExtTreeMap.nodup_keys
  have inside : left :: numbers.toList.map Prod.fst ⊆ names := by
    rw [List.cons_subset]
    refine ⟨listed, ?_⟩
    intro name member
    obtain ⟨⟨name, n⟩, held, rfl⟩ := List.mem_map.mp member
    exact named name n (BTreeMap.mem_toList.mp held)
  have longer := (List.subperm_of_subset apart inside).length_le
  rw [List.length_cons, List.length_map] at longer
  omega

/-- The walk of a call. -/
theorem allocated_walked {numbers : BTreeMap String ℕ} (sound : InRange numbers)
    (names : List String) :
    Walked (numbers.filter fun name _ => (collected names).contains name) (collected names)
      (allocateAll (collected names)
        ⟨numbers.filter fun name _ => (collected names).contains name,
          (numbers.filter fun name _ => (collected names).contains name).toList.map Prod.snd, [],
          1⟩) :=
  allocateAll_walked (collected names) [] (sound.start (collected names)) (collected_ordered names)

theorem allocated_sound {numbers : BTreeMap String ℕ} (sound : InRange numbers)
    (names : List String) : InRange (allocateCollected numbers names).1 := by
  obtain ⟨seen, -, filled⟩ := (allocated_walked sound names).filled
  exact ⟨filled.apart, filled.range⟩

theorem Saved.sound {numbers : BTreeMap String ℕ} (saved : Saved numbers) : InRange numbers := by
  induction saved with
  | fresh =>
    constructor
    · intro a b n row
      simp at row
    · intro name n row
      simp at row
  | allocated saved names ih => exact allocated_sound ih names

/-- For every saved map and all names: the numbers are told apart and in range and belong to wanted
names; a wanted name keeps its number; the call fails exactly when the names are more than the
numbers; and otherwise the new names are told, each with the lowest number that neither a kept name
nor a new one before it has. -/
theorem allocate_lowest {numbers : BTreeMap String ℕ} (saved : Saved numbers)
    (names : List String) :
    Distinct (allocateCollected numbers names).1 ∧
      (∀ (name : String) (n : ℕ), (allocateCollected numbers names).1[name]? = some n →
        name ∈ names ∧ 1 ≤ n ∧ n ≤ maxClass) ∧
      (∀ name ∈ names, ∀ n, numbers[name]? = some n →
        (allocateCollected numbers names).1[name]? = some n) ∧
      ((∃ err, (allocateCollected numbers names).2 = .error err) ↔
        maxClass < (collected names).length) ∧
      ∀ fresh, (allocateCollected numbers names).2 = .ok fresh →
        (∀ name, name ∈ fresh ↔ name ∈ names ∧ numbers[name]? = none) ∧
        (∀ name ∈ names, ∃ n, (allocateCollected numbers names).1[name]? = some n) ∧
        ∀ name ∈ fresh, ∀ n, (allocateCollected numbers names).1[name]? = some n →
          LowestFor numbers (allocateCollected numbers names).1 name n := by
  have sound := allocated_sound saved.sound names
  have walked := allocated_walked saved.sound names
  have kept_iff (name : String) (n : ℕ) :
      (numbers.filter fun name _ => (collected names).contains name)[name]? = some n ↔
        numbers[name]? = some n ∧ name ∈ names := by
    rw [BTreeMap.get_filter, Option.filter_eq_some_iff, List.contains_iff_mem, mem_collected]
  have unkept (name : String) (member : name ∈ names) :
      (numbers.filter fun name _ => (collected names).contains name)[name]? = none ↔
        numbers[name]? = none := by
    rw [Option.eq_none_iff_forall_ne_some, Option.eq_none_iff_forall_ne_some]
    simp only [ne_eq, kept_iff, member, and_true]
  have named (name : String) (n : ℕ)
      (row : (allocateCollected numbers names).1[name]? = some n) : name ∈ collected names := by
    obtain ⟨seen, inside, filled⟩ := walked.filled
    rcases filled.given name n row with held | new
    · exact mem_collected.mpr ((kept_iff name n).mp held).2
    · exact inside new.1
  refine ⟨sound.apart, ?_, ?_, ?_, ?_⟩
  · intro name n row
    exact ⟨mem_collected.mp (named name n row), sound.range name n row⟩
  · intro name member n row
    obtain ⟨seen, -, filled⟩ := walked.filled
    exact filled.keeps name n ((kept_iff name n).mpr ⟨row, member⟩)
  · constructor
    · rintro ⟨err, failed⟩
      cases ended : (allocateAll (collected names) _).2 with
      | ok =>
        rw [allocateCollected, allocate, ended] at failed
        cases failed
      | error err =>
        obtain ⟨⟨left, listed, missing⟩, full⟩ := walked.full err ended
        obtain ⟨seen, -, filled⟩ := walked.filled
        refine names_overflow listed missing named ?_
        intro k low high
        exact (filled.used k).mp (full k low high)
    · intro many
      cases ended : (allocateAll (collected names) _).2 with
      | ok =>
        have fits := names_fit sound (collected_nodup names) (walked.all ended).numbered
        omega
      | error err =>
        refine ⟨err, ?_⟩
        rw [allocateCollected, allocate, ended]
        rfl
  · intro fresh ok
    cases ended : (allocateAll (collected names) _).2 with
    | error err =>
      rw [allocateCollected, allocate, ended] at ok
      cases ok
    | ok =>
      have filled := walked.all ended
      rw [allocateCollected, allocate, ended] at ok
      have told := Except.ok.inj ok
      have fresh_iff (name : String) : name ∈ fresh ↔ name ∈ names ∧ numbers[name]? = none := by
        rw [← told, filled.fresh, mem_collected]
        constructor
        · intro new
          exact ⟨new.1, (unkept name new.1).mp new.2⟩
        · intro new
          exact ⟨new.1, (unkept name new.1).mpr new.2⟩
      refine ⟨fresh_iff, fun name member => filled.numbered name (mem_collected.mpr member), ?_⟩
      intro name new n row
      obtain ⟨member, missing⟩ := (fresh_iff name).mp new
      rcases filled.given name n row with held | ⟨-, -, lowest⟩
      · rw [((kept_iff name n).mp held).1] at missing
        cases missing
      · intro k low high
        obtain ⟨owner, number, reason⟩ := lowest k low high
        exact ⟨owner, number, reason.imp_left fun held => ((kept_iff owner k).mp held).1⟩

theorem allocate_lowest_reused :
    (allocateCollected (allocateCollected ∅ ["a", "b", "c"]).1 ["c", "a", "d"]).1["d"]? = some 2 ∧
      Distinct (allocateCollected (allocateCollected ∅ ["a", "b", "c"]).1 ["c", "a", "d"]).1 :=
  ⟨by decide +kernel, (allocate_lowest (.allocated .fresh ["a", "b", "c"]) ["c", "a", "d"]).1⟩

end Shaping
end NodePlane
