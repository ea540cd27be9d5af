import Mathlib.Data.Int.Basic
import Mathlib.Data.List.Basic
import Mathlib.Order.Basic
import Mathlib.Tactic.Common

/-! Time zones: instants and the wall clock, in microseconds. A wall time that the clock shows twice
is read as the first, one that it never shows by the offset before the change. -/
namespace Library

def day : ℤ := 86400000000

namespace Zone

/-- A change is over, by either clock, before the next. -/
def Settled (before instant after : ℤ) (next : ℤ × ℤ) : Prop :=
  instant + max before after ≤ next.1 + min after next.2 ∧
    instant + (after - before) ≤ next.1 ∧ instant ≤ next.1

/-- Offsets below a day, changes of a day at most, each over before the next. -/
def Sound (before : ℤ) : List (ℤ × ℤ) → Prop
  | [] => -day < before ∧ before < day
  | (instant, after) :: rest => (-day < before ∧ before < day) ∧ after - before ≤ day ∧
    (∀ next ∈ rest.head?, Settled before instant after next) ∧ Sound after rest

end Zone

/-- The offset before the first change; each change's instant and the offset from it on. -/
structure Zone where
  first : ℤ
  changes : List (ℤ × ℤ)
  sound : Zone.Sound first changes

namespace Zone

def offsetFrom (before : ℤ) : List (ℤ × ℤ) → ℤ → ℤ
  | [], _ => before
  | (instant, after) :: rest, now => if now < instant then before else offsetFrom after rest now

/-- The offset by which a wall time is read. -/
def readFrom (before : ℤ) : List (ℤ × ℤ) → ℤ → ℤ
  | [], _ => before
  | (instant, after) :: rest, time =>
    if time < instant + max before after then before else readFrom after rest time

/-- What the clock shows at an instant. -/
def wall (zone : Zone) (now : ℤ) : ℤ := now + offsetFrom zone.first zone.changes now

/-- The instant of a wall time. -/
def instant (zone : Zone) (time : ℤ) : ℤ := time - readFrom zone.first zone.changes time

/-- The changes with the offsets before and after. -/
def jumpsFrom (before : ℤ) : List (ℤ × ℤ) → List (ℤ × ℤ × ℤ)
  | [] => []
  | (instant, after) :: rest => (instant, before, after) :: jumpsFrom after rest

/-- A change forward passes over the wall time, and `now` is between the change and the instant the
old offset gives the time. -/
def SkippedBy (time now : ℤ) (jump : ℤ × ℤ × ℤ) : Prop :=
  jump.1 + jump.2.1 ≤ time ∧ time < jump.1 + jump.2.2 ∧ jump.1 ≤ now ∧ now < time - jump.2.1

/-- A change back lets the wall time come twice, and `now` is between the change and the second. -/
def RepeatedBy (time now : ℤ) (jump : ℤ × ℤ × ℤ) : Prop :=
  jump.1 + jump.2.2 ≤ time ∧ time < jump.1 + jump.2.1 ∧ jump.1 ≤ now ∧ now < time - jump.2.2

def Skipped (zone : Zone) (time now : ℤ) : Prop :=
  ∃ jump ∈ jumpsFrom zone.first zone.changes, SkippedBy time now jump

def Repeated (zone : Zone) (time now : ℤ) : Prop :=
  ∃ jump ∈ jumpsFrom zone.first zone.changes, RepeatedBy time now jump

instance (time now : ℤ) (jump : ℤ × ℤ × ℤ) : Decidable (SkippedBy time now jump) := by
  unfold SkippedBy
  infer_instance

instance (time now : ℤ) (jump : ℤ × ℤ × ℤ) : Decidable (RepeatedBy time now jump) := by
  unfold RepeatedBy
  infer_instance

instance (zone : Zone) (time now : ℤ) : Decidable (zone.Skipped time now) := by
  unfold Skipped
  infer_instance

instance (zone : Zone) (time now : ℤ) : Decidable (zone.Repeated time now) := by
  unfold Repeated
  infer_instance

section
variable {before instant after time now : ℤ} {rest : List (ℤ × ℤ)}

theorem offsetFrom_small (sound : Sound before rest) (now : ℤ) :
    -day < offsetFrom before rest now ∧ offsetFrom before rest now < day := by
  induction rest generalizing before with
  | nil => exact sound
  | cons change rest ih =>
    obtain ⟨instant, after⟩ := change
    rw [offsetFrom]
    split
    · exact sound.1
    · exact ih sound.2.2.2

theorem readFrom_small (sound : Sound before rest) (time : ℤ) :
    -day < readFrom before rest time ∧ readFrom before rest time < day := by
  induction rest generalizing before with
  | nil => exact sound
  | cons change rest ih =>
    obtain ⟨instant, after⟩ := change
    rw [readFrom]
    split
    · exact sound.1
    · exact ih sound.2.2.2

/-- After a change the clock shows its offset until the next change; from that on it shows times past
this change by either clock. -/
theorem wall_later (sound : Sound before ((instant, after) :: rest)) (past : instant ≤ now) :
    offsetFrom after rest now = after ∨ instant + max before after ≤ now + offsetFrom after rest now ∧
      instant + max before after ≤ now + after := by
  induction rest generalizing before instant after with
  | nil => exact .inl rfl
  | cons next rest ih =>
    obtain ⟨instant', after'⟩ := next
    obtain ⟨-, -, settled, later⟩ := sound
    have apart : instant + max before after ≤ instant' + min after after' :=
      (settled _ (Option.mem_some_self _)).1
    rw [offsetFrom]
    split
    · exact .inl rfl
    next past' =>
      rcases ih later (by omega) with same | shown
      · rw [same]
        exact .inr (by omega)
      · exact .inr (by omega)

/-- A wall time past a change is read as an instant past it. -/
theorem read_later (sound : Sound after rest) (ordered : ∀ next ∈ rest.head?, instant ≤ next.1)
    (shown : instant + after ≤ time) : instant ≤ time - readFrom after rest time := by
  induction rest generalizing instant after with
  | nil =>
    rw [readFrom]
    omega
  | cons next rest ih =>
    obtain ⟨instant', after'⟩ := next
    have here : instant ≤ instant' := ordered _ (Option.mem_some_self _)
    rw [readFrom]
    split
    · omega
    · exact Int.le_trans here (ih sound.2.2.2 (fun later listed => (sound.2.2.1 later listed).2.2) (by omega))

/-- The changes after one are later, and so are the times they skip or repeat. -/
theorem jumps_later (sound : Sound before ((instant, after) :: rest)) :
    ∀ jump ∈ jumpsFrom after rest, instant ≤ jump.1 ∧
      instant + max before after ≤ jump.1 + min jump.2.1 jump.2.2 := by
  induction rest generalizing before instant after with
  | nil => exact List.forall_mem_nil _
  | cons next rest ih =>
    obtain ⟨instant', after'⟩ := next
    obtain ⟨-, -, settled, later⟩ := sound
    obtain ⟨apart, -, ordered⟩ := settled _ (Option.mem_some_self _)
    dsimp only at apart ordered
    refine List.forall_mem_cons.mpr ⟨⟨ordered, apart⟩, fun jump listed => ?_⟩
    have := ih later jump listed
    exact ⟨by omega, by omega⟩

theorem skippedFrom_iff (sound : Sound before rest) :
    (∃ jump ∈ jumpsFrom before rest, SkippedBy time now jump) ↔
      time ≤ now + offsetFrom before rest now ∧ now < time - readFrom before rest time := by
  induction rest generalizing before with
  | nil =>
    simp only [jumpsFrom, List.not_mem_nil, false_and, exists_false, offsetFrom, readFrom, false_iff]
    omega
  | cons change rest ih =>
    obtain ⟨instant, after⟩ := change
    have later := jumps_later sound
    rw [jumpsFrom, List.exists_mem_cons_iff, offsetFrom, readFrom]
    by_cases past : now < instant
    · have first : ¬ SkippedBy time now (instant, before, after) := fun skipped => by
        have := skipped.2.2.1
        dsimp only at this
        omega
      have others : ¬ ∃ jump ∈ jumpsFrom after rest, SkippedBy time now jump := by
        rintro ⟨jump, listed, skipped⟩
        have := (later jump listed).1
        have := skipped.2.2.1
        omega
      rw [if_pos past]
      simp only [first, others, or_self, false_iff]
      have reads : instant + after ≤ time → instant ≤ time - readFrom after rest time :=
        read_later sound.2.2.2 fun next listed => (sound.2.2.1 next listed).2.2
      split <;> omega
    · rw [if_neg past]
      by_cases shown : time < instant + max before after
      · rw [if_pos shown]
        have others : ¬ ∃ jump ∈ jumpsFrom after rest, SkippedBy time now jump := by
          rintro ⟨jump, listed, skipped⟩
          have := (later jump listed).2
          have := skipped.1
          omega
        rw [or_iff_left others, SkippedBy]
        dsimp only
        rcases wall_later sound (Int.not_lt.mp past) with same | shown'
        · rw [same]
          omega
        · omega
      · rw [if_neg shown, ← ih sound.2.2.2, or_iff_right]
        intro skipped
        have := skipped.2.1
        dsimp only at this
        omega

theorem repeatedFrom_iff (sound : Sound before rest) :
    (∃ jump ∈ jumpsFrom before rest, RepeatedBy time now jump) ↔
      now + offsetFrom before rest now < time ∧ time - readFrom before rest time ≤ now := by
  induction rest generalizing before with
  | nil =>
    simp only [jumpsFrom, List.not_mem_nil, false_and, exists_false, offsetFrom, readFrom, false_iff]
    omega
  | cons change rest ih =>
    obtain ⟨instant, after⟩ := change
    have later := jumps_later sound
    rw [jumpsFrom, List.exists_mem_cons_iff, offsetFrom, readFrom]
    by_cases past : now < instant
    · have first : ¬ RepeatedBy time now (instant, before, after) := fun twice => by
        have := twice.2.2.1
        dsimp only at this
        omega
      have others : ¬ ∃ jump ∈ jumpsFrom after rest, RepeatedBy time now jump := by
        rintro ⟨jump, listed, twice⟩
        have := (later jump listed).1
        have := twice.2.2.1
        omega
      rw [if_pos past]
      simp only [first, others, or_self, false_iff]
      have reads : instant + after ≤ time → instant ≤ time - readFrom after rest time :=
        read_later sound.2.2.2 fun next listed => (sound.2.2.1 next listed).2.2
      split <;> omega
    · rw [if_neg past]
      by_cases shown : time < instant + max before after
      · rw [if_pos shown]
        have others : ¬ ∃ jump ∈ jumpsFrom after rest, RepeatedBy time now jump := by
          rintro ⟨jump, listed, twice⟩
          have := (later jump listed).2
          have := twice.1
          omega
        rw [or_iff_left others, RepeatedBy]
        dsimp only
        rcases wall_later sound (Int.not_lt.mp past) with same | shown'
        · rw [same]
          omega
        · omega
      · rw [if_neg shown, ← ih sound.2.2.2, or_iff_right]
        intro twice
        have := twice.2.1
        dsimp only at this
        omega

/-- The clock shows a wall time at its instant, or, if it is skipped, one later by the change, whose
instant is the same. -/
theorem wall_readFrom (sound : Sound before rest) (time : ℤ) :
    ∃ jump, 0 ≤ jump ∧ jump ≤ day ∧
      time - readFrom before rest time + offsetFrom before rest (time - readFrom before rest time) =
        time + jump ∧
      time + jump - readFrom before rest (time + jump) = time - readFrom before rest time := by
  induction rest generalizing before with
  | nil => exact ⟨0, Int.le_refl 0, by decide, by simp [readFrom, offsetFrom], by simp [readFrom]⟩
  | cons change rest ih =>
    obtain ⟨instant, after⟩ := change
    rw [readFrom]
    by_cases shown : time < instant + max before after
    · rw [if_pos shown, offsetFrom]
      by_cases past : time - before < instant
      · rw [if_pos past]
        exact ⟨0, Int.le_refl 0, by decide, by omega, by rw [readFrom, if_pos (by omega)]; omega⟩
      · obtain ⟨-, small, settled, later⟩ := sound
        -- the change forward skips the time; the next change is later than its instant
        have next : ∀ next ∈ rest.head?, time - before < next.1 ∧
            instant + max before after ≤ next.1 + min after next.2 := by
          intro next listed
          have := settled next listed
          exact ⟨by have := this.2.1; omega, this.1⟩
        have offset : offsetFrom after rest (time - before) = after := by
          cases rest with
          | nil => rfl
          | cons change rest => exact if_pos (next _ (Option.mem_some_self _)).1
        have read : readFrom after rest (time - before + after) = after := by
          cases rest with
          | nil => rfl
          | cons change rest =>
            have := (next _ (Option.mem_some_self _)).1
            exact if_pos (by omega)
        rw [if_neg past, offset]
        refine ⟨after - before, by omega, by omega, by omega, ?_⟩
        rw [readFrom, if_neg (by omega), show time + (after - before) = time - before + after by omega, read]
        omega
    · rw [if_neg shown, offsetFrom]
      have reads := read_later sound.2.2.2 (fun next listed => (sound.2.2.1 next listed).2.2)
        (show instant + after ≤ time by omega)
      obtain ⟨jump, forward, small, shows, same⟩ := ih sound.2.2.2
      rw [if_neg (by omega)]
      refine ⟨jump, forward, small, shows, ?_⟩
      rw [readFrom, if_neg (by omega)]
      exact same

end

variable (zone : Zone) {time now : ℤ}

/-- The clock has passed a wall time whose instant is still to come. -/
theorem skipped_iff : zone.Skipped time now ↔ time ≤ zone.wall now ∧ now < zone.instant time :=
  skippedFrom_iff zone.sound

/-- The clock is before a wall time whose instant has come. -/
theorem repeated_iff : zone.Repeated time now ↔ zone.wall now < time ∧ zone.instant time ≤ now :=
  repeatedFrom_iff zone.sound

theorem wall_instant (time : ℤ) : ∃ jump, 0 ≤ jump ∧ jump ≤ day ∧
    zone.wall (zone.instant time) = time + jump ∧ zone.instant (time + jump) = zone.instant time :=
  wall_readFrom zone.sound time

theorem wall_near (now : ℤ) : now - day < zone.wall now ∧ zone.wall now < now + day := by
  have := offsetFrom_small zone.sound now
  unfold wall
  omega

theorem instant_near (time : ℤ) : time - day < zone.instant time ∧ zone.instant time < time + day := by
  have := readFrom_small zone.sound time
  unfold instant
  omega

end Zone
end Library
