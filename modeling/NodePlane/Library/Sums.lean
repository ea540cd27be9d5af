import Mathlib.Data.List.SplitBy
import Mathlib.Data.List.Perm.Basic

/-! Sums over the rows of a list, and cumulative readings: what is added between neighbours,
summed run by run. -/
namespace Library
variable {α β : Type}

/-- The sum of a column. -/
def sumOf (f : α → ℕ) (rows : List α) : ℕ := rows.foldr (fun row sum => f row + sum) 0

section
variable {f g : α → ℕ} {rows more : List α}

@[simp] theorem sumOf_nil : sumOf f [] = 0 := rfl

@[simp] theorem sumOf_cons (row : α) : sumOf f (row :: rows) = f row + sumOf f rows := rfl

theorem sumOf_append : sumOf f (rows ++ more) = sumOf f rows + sumOf f more := by
  induction rows with
  | nil => simp
  | cons row rest ih =>
    rw [List.cons_append, sumOf_cons, sumOf_cons, ih]
    omega

theorem sumOf_map (h : β → α) (rows : List β) : sumOf f (rows.map h) = sumOf (f ∘ h) rows := by
  induction rows with
  | nil => rfl
  | cons row rest ih => rw [List.map_cons, sumOf_cons, ih, sumOf_cons, Function.comp_apply]

theorem sumOf_perm (same : rows.Perm more) : sumOf f rows = sumOf f more := by
  induction same with
  | nil => rfl
  | cons row _ ih => rw [sumOf_cons, sumOf_cons, ih]
  | swap row other rest =>
    simp only [sumOf_cons]
    omega
  | trans _ _ first second => rw [first, second]

theorem sumOf_congr (same : ∀ row ∈ rows, f row = g row) : sumOf f rows = sumOf g rows := by
  induction rows with
  | nil => rfl
  | cons row rest ih =>
    rw [sumOf_cons, sumOf_cons, same row List.mem_cons_self,
      ih fun r held => same r (List.mem_cons_of_mem row held)]

/-- Two columns that differ in one row only. -/
theorem sumOf_update (distinct : rows.Nodup) {row : α} (held : row ∈ rows) {n : ℕ}
    (here : f row = n + g row) (others : ∀ other ∈ rows, other ≠ row → f other = g other) :
    sumOf f rows = n + sumOf g rows := by
  induction rows with
  | nil => cases held
  | cons first rest ih =>
    obtain ⟨fresh, distinct⟩ := List.nodup_cons.mp distinct
    rw [sumOf_cons, sumOf_cons]
    rcases List.mem_cons.mp held with rfl | later
    · have same : sumOf f rest = sumOf g rest := by
        apply sumOf_congr
        intro other there
        apply others other (List.mem_cons_of_mem _ there)
        rintro rfl
        exact fresh there
      omega
    · have apart : first ≠ row := by
        rintro rfl
        exact fresh later
      have first := others first List.mem_cons_self apart
      have second := ih distinct later fun other there => others other (List.mem_cons_of_mem _ there)
      omega

end

/-! Readings. -/

variable (same : α → α → Bool) (value : α → ℕ)

/-- What the readings add one after another: the difference within a run, the whole value where
a run starts; the first reading adds nothing. -/
def increments : List α → ℕ
  | a :: b :: rest => (if same a b then value b - value a else value b) + increments (b :: rest)
  | _ => 0

/-- The reading a run ends with. -/
def lastValue (run : List α) : ℕ := (run.getLast?.map value).getD 0

def firstValue (run : List α) : ℕ := (run.head?.map value).getD 0

/-- Last minus first over the runs: the first run starts at its first reading, the others at
zero. -/
def measured : List (List α) → ℕ
  | [] => 0
  | run :: rest => lastValue value run - firstValue value run + sumOf (lastValue value) rest

variable {same value}

theorem splitBy_head (a : α) (rest : List α) : ∃ run runs, (a :: rest).splitBy same = (a :: run) :: runs := by
  cases split : (a :: rest).splitBy same with
  | nil => exact absurd (List.splitBy_eq_nil.mp split) (List.cons_ne_nil a rest)
  | cons run runs =>
    obtain ⟨joined, nonempty, -, -⟩ := List.splitBy_eq_iff.mp split
    cases run with
    | nil => exact absurd List.mem_cons_self nonempty
    | cons b run =>
      rw [List.flatten_cons, List.cons_append] at joined
      rw [(List.cons.inj joined).1]
      exact ⟨run, runs, rfl⟩

/-- A reading of the same run goes in front of it. -/
theorem splitBy_cons_same {a b : α} {rest run : List α} {runs : List (List α)}
    (split : (b :: rest).splitBy same = (b :: run) :: runs) (joins : same a b = true) :
    (a :: b :: rest).splitBy same = (a :: b :: run) :: runs := by
  obtain ⟨joined, nonempty, chains, apart⟩ := List.splitBy_eq_iff.mp split
  rw [List.splitBy_eq_iff]
  refine ⟨?_, ?_, ?_, ?_⟩
  · rw [joined]
    rfl
  · rw [List.mem_cons, not_or] at nonempty ⊢
    exact ⟨List.cons_ne_nil _ _ ∘ Eq.symm, nonempty.2⟩
  · intro m held
    rcases List.mem_cons.mp held with rfl | later
    · exact List.isChain_cons_cons.mpr ⟨joins, chains (b :: run) List.mem_cons_self⟩
    · exact chains m (List.mem_cons_of_mem _ later)
  · rw [List.isChain_cons] at apart ⊢
    refine ⟨fun next head => ?_, apart.2⟩
    obtain ⟨nonempty, head, different⟩ := apart.1 next head
    exact ⟨List.cons_ne_nil _ _, head, by simpa using different⟩

theorem splitBy_cons_apart {a b : α} {rest : List α} (apart : same a b = false) :
    (a :: b :: rest).splitBy same = [a] :: (b :: rest).splitBy same := by
  have split := @List.splitBy_append_cons α same [a] b rest (by simpa using apart)
  exact split

theorem first_le_last (mono : ∀ a b, same a b = true → value a ≤ value b) {a : α} {run : List α}
    (chain : (a :: run).IsChain fun x y => same x y = true) : value a ≤ lastValue value (a :: run) := by
  induction run generalizing a with
  | nil => exact Nat.le_refl _
  | cons b run ih =>
    obtain ⟨joins, later⟩ := List.isChain_cons_cons.mp chain
    have rest := ih later
    rw [lastValue, List.getLast?_cons_cons]
    exact Nat.le_trans (mono a b joins) rest

/-- Increments telescope over the runs. -/
theorem increments_eq (mono : ∀ a b, same a b = true → value a ≤ value b) (readings : List α) :
    increments same value readings = measured value (readings.splitBy same) := by
  induction readings with
  | nil => rfl
  | cons a rest ih =>
    cases rest with
    | nil =>
      show 0 = value a - value a + 0
      omega
    | cons b rest =>
      obtain ⟨run, runs, split⟩ := @splitBy_head α same b rest
      have chain : (b :: run).IsChain fun x y => same x y = true :=
        List.isChain_of_mem_splitBy (split ▸ List.mem_cons_self)
      have bound := first_le_last mono chain
      rw [increments, ih, split, measured, show firstValue value (b :: run) = value b from rfl]
      cases joins : same a b with
      | true =>
        have grows := mono a b joins
        rw [splitBy_cons_same split joins, measured, if_pos rfl, lastValue.eq_def value (a :: b :: run),
          List.getLast?_cons_cons, ← lastValue, show firstValue value (a :: b :: run) = value a from rfl]
        omega
      | false =>
        rw [splitBy_cons_apart joins, split, measured, if_neg Bool.false_ne_true,
          sumOf_cons, show lastValue value [a] = value a from rfl,
          show firstValue value [a] = value a from rfl]
        omega

end Library
