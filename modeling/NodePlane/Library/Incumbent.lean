import Mathlib.Order.Lattice
import Mathlib.Tactic.Common

/-! The best of a list of ranked offers, taken in one pass: an offer replaces the incumbent unless the
incumbent ranks above it. -/
namespace Library
namespace Incumbent
variable {ρ ν : Type} [LinearOrder ρ]

def offer (best : Option (ρ × ν)) (o : ρ × ν) : Option (ρ × ν) :=
  match best with
  | none => some o
  | some b => if b.1 ≤ o.1 then some o else some b

def best (offers : List (ρ × ν)) : Option (ρ × ν) := offers.foldl offer none

/-- An offer at least as high replaces the incumbent. -/
theorem offer_eq {incumbent : Option (ρ × ν)} {o : ρ × ν} (high : ∀ b ∈ incumbent, b.1 ≤ o.1) :
    offer incumbent o = some o := by
  cases incumbent with
  | none => rfl
  | some b => exact if_pos (high b rfl)

theorem foldl_offer {offers : List (ρ × ν)} {incumbent : Option (ρ × ν)} {o : ρ × ν}
    (found : offers.foldl offer incumbent = some o) :
    (o ∈ offers ∨ incumbent = some o) ∧ (∀ b ∈ incumbent, b.1 ≤ o.1) ∧ ∀ p ∈ offers, p.1 ≤ o.1 := by
  induction offers generalizing incumbent with
  | nil =>
    refine ⟨.inr found, ?_, List.forall_mem_nil _⟩
    rintro b held
    rw [show b = o from Option.some.inj (held.symm.trans found)]
  | cons first rest ih =>
    obtain ⟨listed, above, later⟩ := ih found
    have kept : first.1 ≤ o.1 ∧ ∀ b ∈ incumbent, b.1 ≤ o.1 := by
      cases incumbent with
      | none => exact ⟨above first rfl, by rintro _ ⟨⟩⟩
      | some b =>
        rw [offer] at above
        split at above
        next high =>
          have := above first rfl
          refine ⟨this, ?_⟩
          rintro _ ⟨⟩
          exact high.trans this
        next low =>
          have := above b rfl
          refine ⟨(not_le.mp low).le.trans this, ?_⟩
          rintro _ ⟨⟩
          exact this
    refine ⟨?_, kept.2, List.forall_mem_cons.mpr ⟨kept.1, later⟩⟩
    rcases listed with listed | held
    · exact .inl (List.mem_cons_of_mem _ listed)
    · cases incumbent with
      | none =>
        cases held
        exact .inl List.mem_cons_self
      | some b =>
        rw [offer] at held
        split at held
        · cases held
          exact .inl List.mem_cons_self
        · exact .inr held

theorem foldl_offer_none {offers : List (ρ × ν)} {incumbent : Option (ρ × ν)} :
    offers.foldl offer incumbent = none ↔ offers = [] ∧ incumbent = none := by
  induction offers generalizing incumbent with
  | nil => simp
  | cons first rest ih =>
    rw [List.foldl_cons, ih]
    constructor
    · rintro ⟨-, none⟩
      cases incumbent with
      | none => cases none
      | some b =>
        rw [offer] at none
        split at none <;> cases none
    · rintro ⟨⟨⟩, -⟩

/-- The best offer is one of the offers, and none ranks above it. -/
theorem best_some {offers : List (ρ × ν)} {o : ρ × ν} (found : best offers = some o) :
    o ∈ offers ∧ ∀ p ∈ offers, p.1 ≤ o.1 := by
  obtain ⟨listed, -, above⟩ := foldl_offer found
  exact ⟨listed.resolve_right (by rintro ⟨⟩), above⟩

theorem best_none {offers : List (ρ × ν)} : best offers = none ↔ offers = [] :=
  foldl_offer_none.trans (and_iff_left rfl)

/-- With ranks that tell the offers apart, the best is the one that none ranks above. -/
theorem best_iff {offers : List (ρ × ν)} (distinct : ∀ p ∈ offers, ∀ q ∈ offers, p.1 = q.1 → p = q)
    {o : ρ × ν} : best offers = some o ↔ o ∈ offers ∧ ∀ p ∈ offers, p.1 ≤ o.1 := by
  refine ⟨best_some, ?_⟩
  rintro ⟨listed, above⟩
  cases found : best offers with
  | none =>
    rw [best_none.mp found] at listed
    cases listed
  | some p =>
    obtain ⟨listed', above'⟩ := best_some found
    rw [distinct p listed' o listed (le_antisymm (above p listed') (above' o listed))]

end Incumbent
end Library
