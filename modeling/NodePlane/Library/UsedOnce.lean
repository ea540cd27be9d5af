import Mathlib.Data.List.Basic

/-! A table of what was used, whose entries are dropped after a deadline: what is used a second
time has been forgotten before. -/
namespace Library
namespace UsedOnce
variable {κ τ : Type} [LE τ]

/-- A use: its key, until when it is remembered, and when it was. -/
structure Use (κ τ : Type) where
  key : κ
  deadline : τ
  time : τ

/-- When entries are dropped; what is dropped stays so. -/
structure Retention (τ : Type) [LE τ] where
  gone : τ → τ → Bool
  lasting : ∀ {deadline now later : τ}, gone deadline now = true → now ≤ later →
    gone deadline later = true

namespace Retention
variable (retention : Retention τ)

/-- The entries that stand at `now`. -/
def purge (rows : List (κ × τ)) (now : τ) : List (κ × τ) :=
  rows.filter fun row => !retention.gone row.2 now

/-- Every use that is not past its deadline stands in the table. -/
def Remembers (uses : List (Use κ τ)) (rows : List (κ × τ)) (now : τ) : Prop :=
  ∀ use ∈ uses, retention.gone use.deadline now = false → (use.key, use.deadline) ∈ rows

/-- Of two uses of a key, newest first, the older was past its deadline at the newer. -/
def Apart (uses : List (Use κ τ)) : Prop :=
  uses.Pairwise fun later earlier =>
    later.key = earlier.key → retention.gone earlier.deadline later.time = true

variable {retention} {uses : List (Use κ τ)} {rows : List (κ × τ)} {now later : τ}

theorem Remembers.mono (remembers : retention.Remembers uses rows now) (passed : now ≤ later) :
    retention.Remembers uses rows later := by
  intro use used standing
  apply remembers use used
  cases before : retention.gone use.deadline now with
  | false => rfl
  | true =>
    rw [retention.lasting before passed] at standing
    cases standing

theorem Remembers.purge (remembers : retention.Remembers uses rows now) :
    retention.Remembers uses (retention.purge rows now) now := by
  intro use used standing
  refine List.mem_filter.mpr ⟨remembers use used standing, ?_⟩
  simp [standing]

theorem Remembers.enter (remembers : retention.Remembers uses rows now) (use : Use κ τ) :
    retention.Remembers (use :: uses) ((use.key, use.deadline) :: rows) now := by
  intro other used standing
  rcases List.mem_cons.mp used with rfl | used
  · exact List.mem_cons_self
  · exact List.mem_cons_of_mem _ (remembers other used standing)

/-- More entries are remembered as well. -/
theorem Remembers.keep (remembers : retention.Remembers uses rows now) (row : κ × τ) :
    retention.Remembers uses (row :: rows) now := by
  intro use used standing
  exact List.mem_cons_of_mem _ (remembers use used standing)

/-- A key that is missing from the table was used before its deadline only. -/
theorem Remembers.forgotten (remembers : retention.Remembers uses rows now) {key : κ}
    (missing : key ∉ rows.map Prod.fst) {use : Use κ τ} (used : use ∈ uses) (same : use.key = key) :
    retention.gone use.deadline now = true := by
  by_contra standing
  apply missing
  rw [← same]
  exact List.mem_map.mpr ⟨_, remembers use used (by simpa using standing), rfl⟩

theorem Apart.enter (apart : retention.Apart uses) (remembers : retention.Remembers uses rows now)
    {use : Use κ τ} (missing : use.key ∉ rows.map Prod.fst) (present : use.time = now) :
    retention.Apart (use :: uses) := by
  refine List.pairwise_cons.mpr ⟨?_, apart⟩
  intro earlier used same
  rw [present]
  exact remembers.forgotten missing used same.symm

end Retention
end UsedOnce
end Library
