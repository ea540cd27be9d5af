import Mathlib.Data.List.Basic
import Mathlib.Order.MinMax

/-! Rows that are removed and created again under one key, and the revisions sent for
them: what was sent for the row that is there, and what was sent for an earlier one. -/
namespace Library
variable {ε : Type}

section Rows
variable (sent : ε → ℕ → Prop) (removed : ε → Prop)

/-- Revision `r` was sent, and the row has not been removed since. -/
def SentSince (past : List ε) (r : ℕ) : Prop :=
  ∃ earlier e later, past = earlier ++ e :: later ∧ sent e r ∧ ∀ x ∈ later, ¬removed x

/-- Revision `r` was sent, and the row was removed after that. -/
def SentBefore (past : List ε) (r : ℕ) : Prop :=
  ∃ earlier x later, past = earlier ++ x :: later ∧ removed x ∧ ∃ e ∈ earlier, sent e r

variable {sent removed} {past es : List ε} {r : ℕ}

theorem SentSince.append (h : SentSince sent removed (past ++ es) r) :
    (SentSince sent removed past r ∧ ∀ x ∈ es, ¬removed x) ∨ ∃ e ∈ es, sent e r := by
  obtain ⟨earlier, e, later, split, shown, kept⟩ := h
  rcases List.append_eq_append_iff.mp split with ⟨mid, rfl, inside⟩ | ⟨mid, rfl, inside⟩
  · refine .inr ⟨e, ?_, shown⟩
    rw [inside]
    exact List.mem_append_right _ (List.mem_cons_self ..)
  · cases mid with
    | nil =>
      refine .inr ⟨e, ?_, shown⟩
      rw [← show e :: later = es from inside]
      exact List.mem_cons_self ..
    | cons y rest =>
      rw [List.cons_append] at inside
      obtain ⟨rfl, rfl⟩ := List.cons.inj inside
      exact .inl ⟨⟨earlier, e, rest, rfl, shown, fun x listed =>
        kept x (List.mem_append_left _ listed)⟩, fun x listed =>
          kept x (List.mem_append_right _ listed)⟩

/-- Whatever was sent was sent for the row that is there, or before a removal. -/
theorem sent_cases {e : ε} (listed : e ∈ past) (shown : sent e r) :
    SentSince sent removed past r ∨ SentBefore sent removed past r := by
  classical
  obtain ⟨earlier, later, rfl⟩ := List.append_of_mem listed
  by_cases gone : ∃ x ∈ later, removed x
  · obtain ⟨x, after, removal⟩ := gone
    obtain ⟨before, rest, rfl⟩ := List.append_of_mem after
    exact .inr ⟨earlier ++ e :: before, x, rest, by simp, removal, e, by simp, shown⟩
  · exact .inl ⟨earlier, e, later, rfl, shown, fun x after removal => gone ⟨x, after, removal⟩⟩

theorem SentBefore.event (h : SentBefore sent removed past r) : ∃ e ∈ past, sent e r := by
  obtain ⟨earlier, x, later, rfl, _, e, listed, shown⟩ := h
  exact ⟨e, List.mem_append_left _ listed, shown⟩

variable (sent removed) in
/-- The row's revision, if the row is there, is at or above what was sent for it. -/
def Leads (past : List ε) (revision : Option ℕ) : Prop :=
  ∀ r, SentSince sent removed past r → ∃ m, revision = some m ∧ r ≤ m

variable {revision next : Option ℕ}

theorem Leads.nil : Leads sent removed [] revision := by
  rintro r ⟨earlier, e, later, split, _⟩
  simp at split

/-- A row leads on when it is kept or removed with an event that says so, and commands
are sent at or below its revision. -/
theorem Leads.step (leads : Leads sent removed past revision)
    (kept : (∀ x ∈ es, ¬removed x) → ∀ m, revision = some m → ∃ n, next = some n ∧ m ≤ n)
    (below : ∀ e ∈ es, ∀ r, sent e r → ∃ n, next = some n ∧ r ≤ n) :
    Leads sent removed (past ++ es) next := by
  intro r since
  rcases since.append with ⟨old, quiet⟩ | ⟨e, listed, shown⟩
  · obtain ⟨m, found, le⟩ := leads r old
    obtain ⟨n, stays, rises⟩ := kept quiet m found
    exact ⟨n, stays, Nat.le_trans le rises⟩
  · exact below e listed r shown

/-- A row put back above `kept` and above the row that is there lies above everything
sent exactly if both together reach what was sent before the row was removed. -/
theorem Leads.above_iff (leads : Leads sent removed past revision) (kept : ℕ) :
    (∀ e ∈ past, ∀ r, sent e r → r < max kept (revision.getD 0) + 1) ↔
      ∀ r, SentBefore sent removed past r → r ≤ kept ∨ ∃ m, revision = some m ∧ r ≤ m := by
  constructor
  · intro above r before
    obtain ⟨e, listed, shown⟩ := before.event
    have small := above e listed r shown
    cases revision with
    | none =>
      rw [Option.getD_none, Nat.max_zero] at small
      exact .inl (Nat.lt_succ_iff.mp small)
    | some m =>
      rw [Option.getD_some] at small
      rcases le_max_iff.mp (Nat.lt_succ_iff.mp small) with low | low
      · exact .inl low
      · exact .inr ⟨m, rfl, low⟩
  · intro reached e listed r shown
    have low : r ≤ kept ∨ ∃ m, revision = some m ∧ r ≤ m := by
      rcases sent_cases listed shown with since | before
      · exact .inr (leads r since)
      · exact reached r before
    rcases low with low | ⟨m, rfl, low⟩
    · exact Nat.lt_succ_of_le (Nat.le_trans low (Nat.le_max_left ..))
    · exact Nat.lt_succ_of_le (Nat.le_trans low (Nat.le_max_right ..))

end Rows
end Library
